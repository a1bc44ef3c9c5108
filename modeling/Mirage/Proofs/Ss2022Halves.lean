import Mirage.Proofs.WuStream
import Mirage.Transport.Ss2022Stream

/-!
# The two halves of an SS-2022 stream

Each accepted byte range is one chunk (`encode`), which the writing half owes to the wire and the
reading half takes, waits for, or does not get.
-/

namespace Mirage.Transport

open Words Wires Wires.Wire Nat
open List hiding Vector

/-- Chunks open under the key and the nonce they were sealed with, and are a tag longer. -/
structure SsSuite.Ideal (S : SsSuite) : Prop where
  opens : ∀ key nonce plain, S.decrypt key nonce (S.encrypt key nonce plain) = some plain
  length : ∀ key nonce plain, (S.encrypt key nonce plain).length = plain.length + tagLen

section

variable (S : SsSuite)

def encode (key : Bytes32) : UInt64 → List Bytes → Bytes
  | _, [] => []
  | n, r :: rs => encryptChunk S key n r ++ encode key (n + 2) rs

def advance (n : UInt64) (k : ℕ) : UInt64 := (· + 2)^[k] n

end

def chunkLen (r : Bytes) : ℕ := encLenField + r.length + tagLen

def encodedLen (rs : List Bytes) : ℕ := (rs.map chunkLen).sum

variable {S : SsSuite} {key : Bytes32} {n : UInt64} {r : Bytes} {rs : List Bytes} {room : ℕ}

lemma advance_add (k l : ℕ) : advance (advance n k) l = advance n (k + l) := by
  rw [advance, advance, advance, add_comm, Function.iterate_add_apply]

lemma encode_concat : ∀ n rs,
    encode S key n (rs ++ [r]) = encode S key n rs ++ encryptChunk S key (advance n rs.length) r
  | _, [] => by simp [encode, advance]
  | n, r' :: rs => by
    rw [cons_append, encode, encode_concat, encode, append_assoc]
    rfl

lemma length_encryptChunk (ideal : S.Ideal) : (encryptChunk S key n r).length = chunkLen r := by
  rw [encryptChunk, length_append, ideal.length, ideal.length, length_beBytes, chunkLen,
    encLenField]
  omega

lemma length_encode (ideal : S.Ideal) : ∀ n rs,
    (encode S key n rs).length = encodedLen rs
  | _, [] => rfl
  | n, r :: rs => by
    rw [encode, length_append, length_encryptChunk ideal, length_encode ideal (n + 2) rs]
    rfl

lemma encodedLen_append (rs rs' : List Bytes) :
    encodedLen (rs ++ rs') = encodedLen rs + encodedLen rs' := by
  simp [encodedLen]

lemma encodedLen_cons : encodedLen (r :: rs) = chunkLen r + encodedLen rs := rfl

namespace SsWriter

open CarrierOut

variable {b : SsWriter} {c : CarrierOut} {w₀ : Wire UInt8} {owed data : Bytes}

def Same (b b' : SsWriter) : Prop :=
  b'.writeSubkey = b.writeSubkey ∧ b'.writeCounter = b.writeCounter

/-- What becomes of the writer's buffer. -/
inductive BufDrained (b : SsWriter) (w₀ : Wire UInt8) (owed : Bytes) :
    IoPoll Unit × SsWriter × CarrierOut → Prop
  | pending {b' : SsWriter} {c : CarrierOut} (same : Same b b') (h : Owes w₀ owed b'.rest c) :
    BufDrained b w₀ owed (.pending, b', c)
  | failed {b' : SsWriter} {c : CarrierOut} {e : IoError} (closed : w₀.closed = true)
    (same : Same b b') (h : Owes w₀ owed b'.rest c) : BufDrained b w₀ owed (.failed e, b', c)
  | all {b' : SsWriter} {c : CarrierOut} (same : Same b b') (rest : b'.rest = [])
    (h : Owes w₀ owed [] c) : BufDrained b w₀ owed (.ready (), b', c)

lemma drainBuf_drained (h : Owes w₀ owed b.rest c) : BufDrained b w₀ owed (b.drainBuf c) := by
  have hd : Drained (Owes w₀ owed) (fun _ => w₀.closed = true) b.rest
      (drain CarrierOut.pollWrite (.writeZero "ss2022: inner stream accepted 0 bytes")
        b.rest.length b.rest c) :=
    drain_spec (fun data s hdt hR => hR.wrote hdt) _ b.rest c le_rfl h
  rw [drainBuf]
  generalize drain CarrierOut.pollWrite (.writeZero "ss2022: inner stream accepted 0 bytes")
    b.rest.length b.rest c = r at hd
  have hr (k : ℕ) : ({ b with writeOff := b.writeOff + k } : SsWriter).rest = b.rest.drop k := by
    simp only [rest, drop_drop]
  cases hd with
  | pending le h => exact .pending ⟨rfl, rfl⟩ (hr _ ▸ h)
  | failed le closed h => exact .failed closed ⟨rfl, rfl⟩ (hr _ ▸ h)
  | all h => exact .all ⟨rfl, rfl⟩ (by rw [hr, drop_length]) h

lemma drainBuf_of_closed (h : Owes w₀ owed b.rest c) (hw : w₀.closed = true)
    (hb : b.rest ≠ []) (hs : stagedOf c.1 = 0) : ∃ e b' c', b.drainBuf c = (.failed e, b', c') := by
  obtain ⟨x, l, hx⟩ := exists_cons_of_ne_nil hb
  obtain ⟨e, c', hc⟩ := pollWrite_of_closed (h.sends.closed_eq.trans hw) h.valid hs hb
  rw [hx] at hc
  have hf : b.drainBuf c = (.failed e, { b with writeOff := b.writeOff + 0 }, c') := by
    simp only [drainBuf, hx, length_cons, drain, hc]
  exact ⟨e, _, c', hf⟩

/-- Nothing, or a byte range with its chunk owed, is accepted, or the wire is closed. -/
inductive Written (S : SsSuite) (b : SsWriter) (w₀ : Wire UInt8) (owed data : Bytes) :
    IoPoll ℕ × SsWriter × CarrierOut → Prop
  | kept {r : IoPoll ℕ} {b' : SsWriter} {c : CarrierOut} (none : ∀ n, r = .ready n → n = 0)
    (same : Same b b') (h : Owes w₀ owed b'.rest c) : Written S b w₀ owed data (r, b', c)
  | accepted {n : ℕ} {b' : SsWriter} {c : CarrierOut} (opened : w₀.closed = false) (pos : 0 < n)
    (le : n ≤ data.length) (max : n ≤ maxPayloadChunk) (key : b'.writeSubkey = b.writeSubkey)
    (counter : b'.writeCounter = b.writeCounter + 2)
    (h : Owes w₀ (owed ++ encryptChunk S b.writeSubkey b.writeCounter (data.take n)) b'.rest c) :
    Written S b w₀ owed data (.ready n, b', c)
  | refused {e : IoError} {b' : SsWriter} {c : CarrierOut} {owed' : Bytes}
    (closed : w₀.closed = true) (h : Owes w₀ owed' b'.rest c) :
    Written S b w₀ owed data (.failed e, b', c)

lemma rest_load : (b.load S data).rest = encryptChunk S b.writeSubkey b.writeCounter data := rfl

lemma rest_clear : (if b.writeBuf.length ≤ b.writeOff then b.clear else b).rest = b.rest := by
  split_ifs with h
  · exact (drop_eq_nil_of_le h).symm
  · rfl

lemma owes_load {d : Bytes} (h : Owes w₀ owed [] c) : Owes w₀ (owed ++ d) d c := by
  have h0 : stagedOf c.1 = 0 := le_zero.1 h.staged
  obtain ⟨l, hl, hcl, ho⟩ := h.sends.moved
  refine ⟨h.valid, by rw [h0]; exact zero_le _, h.sends.sane, l, hl, hcl, ?_⟩
  rw [ho, h0, drop_zero, drop_zero, append_nil, append_assoc]

lemma pollWrite_written (ideal : S.Ideal) (data : Bytes) (h : Owes w₀ owed b.rest c) :
    Written S b w₀ owed data (b.pollWrite S data c) := by
  have hd := drainBuf_drained h
  rw [pollWrite]
  generalize b.drainBuf c = r at hd
  cases hd with
  | pending same h | failed closed same h => exact .kept nofun same h
  | @all b₁ c₁ same rest h =>
    simp only
    split_ifs with hdt
    · exact .kept (fun n hn => by cases hn; rfl) same h
    have hl := length_pos_of_ne_nil hdt
    have hm : 0 < maxPayloadChunk := by decide
    have hp : 0 < min data.length maxPayloadChunk := by omega
    have ho : Owes w₀ (owed ++ encryptChunk S b.writeSubkey b.writeCounter
        (data.take (min data.length maxPayloadChunk)))
        (b₁.clear.load S (data.take (min data.length maxPayloadChunk))).rest c₁ := by
      change Owes _ _ (encryptChunk S b₁.writeSubkey b₁.writeCounter _) _
      rw [same.1, same.2]
      exact owes_load h
    rcases Bool.eq_false_or_eq_true w₀.closed with hw | hw
    · have hne : (b₁.clear.load S (data.take (min data.length maxPayloadChunk))).rest ≠ [] := by
        rw [rest_load, ← length_pos_iff, length_encryptChunk ideal, chunkLen, encLenField]
        omega
      obtain ⟨e, b', c', hf⟩ :=
        drainBuf_of_closed ho hw hne (le_zero.1 h.staged)
      have hd := drainBuf_drained ho
      rw [hf] at hd ⊢
      cases hd with
      | failed closed same h => exact .refused hw h
    · have hd := drainBuf_drained ho
      generalize (b₁.clear.load S (data.take (min data.length maxPayloadChunk))).drainBuf c₁ = r
        at hd
      have ha {b' : SsWriter} {c' : CarrierOut}
          (hs : Same (b₁.clear.load S (data.take (min data.length maxPayloadChunk))) b')
          (h : Owes w₀ (owed ++ encryptChunk S b.writeSubkey b.writeCounter
            (data.take (min data.length maxPayloadChunk))) b'.rest c') :
          Written S b w₀ owed data (.ready (min data.length maxPayloadChunk),
            if b'.writeBuf.length ≤ b'.writeOff then b'.clear else b', c') := by
        refine .accepted hw hp (min_le_left _ _) (min_le_right _ _) ?_ ?_ (by rwa [rest_clear])
        · rw [apply_ite SsWriter.writeSubkey]
          exact (ite_self _).trans (hs.1.trans same.1)
        · rw [apply_ite SsWriter.writeCounter]
          refine (ite_self _).trans (hs.2.trans ?_)
          exact congrArg (· + 2) same.2
      cases hd with
      | pending hs h => exact ha hs h
      | failed closed => rw [hw] at closed; cases closed
      | all hs rest h => exact ha hs (rest ▸ h)

lemma pollFlush_owes (h : Owes w₀ owed b.rest c) :
    Same b (b.pollFlush c).2.1 ∧ Owes w₀ owed (b.pollFlush c).2.1.rest (b.pollFlush c).2.2 := by
  have hd := drainBuf_drained h
  rw [pollFlush]
  generalize b.drainBuf c = r at hd
  cases hd with
  | pending same h | failed closed same h => exact ⟨same, h⟩
  | all same rest h => exact ⟨same, CarrierOut.pollFlush_owes h⟩

end SsWriter

/-- A header that the client of a request takes for the response to it, within the tolerance of
its timestamp. -/
structure IsResponse (requestSalt : Vector UInt8 16) (stamp : ℕ) (header : Bytes) : Prop where
  min : 1 + 8 + saltLen + 2 ≤ header.length
  max : header.length < 65536
  type : header.getD 0 0 = headerTypeResponse
  stamp : beNat ((header.drop 1).take 8) = stamp
  echo : (header.drop 9).take saltLen = requestSalt.toList

lemma IsResponse.validate {requestSalt : Vector UInt8 16} {stamp nowSecs : ℕ} {header : Bytes}
    (h : IsResponse requestSalt stamp header) :
    validateResponseHeader header requestSalt nowSecs = none ↔
      absDiff nowSecs stamp ≤ timestampToleranceSecs := by
  rw [validateResponseHeader, if_neg (not_lt.2 h.min), if_neg (not_not.2 h.type), h.stamp]
  split_ifs with hlt he
  · simp only [false_iff, not_le]
    exact hlt
  · exact absurd h.echo he
  · simp only [true_iff]
    exact not_lt.1 hlt

/-- Part of what is awaited has come. -/
structure Staged (target : ℕ) (stage rest whole : Bytes) : Prop where
  le : stage.length ≤ target
  eq : stage ++ rest = whole

section

variable {target : ℕ} {stage rest rest' whole l x y : Bytes}

lemma Staged.more (h : Staged target stage rest whole) (came : rest = l ++ rest')
    (len : l.length < target - stage.length) :
    Staged target (stage ++ l) rest' whole ∧ (stage ++ l).length < target := by
  have hlt : (stage ++ l).length < target := by
    rw [length_append]
    omega
  refine ⟨⟨hlt.le, ?_⟩, hlt⟩
  rw [append_assoc, ← came, h.eq]

lemma Staged.full (h : Staged target stage rest (x ++ y)) (hx : x.length = target)
    (came : rest = l ++ rest') (len : l.length = target - stage.length) :
    stage ++ l = x ∧ rest' = y := by
  have hle := h.le
  refine append_inj ?_ ?_
  · rw [append_assoc, ← came, h.eq]
  · rw [length_append, hx]
    omega

lemma Staged.append (h : Staged target stage rest whole) (e : Bytes) :
    Staged target stage (rest ++ e) (whole ++ e) :=
  ⟨h.le, by rw [← append_assoc, h.eq]⟩

lemma Staged.concat (h : Staged target stage rest (x ++ encode S key n rs)) :
    Staged target stage (rest ++ encryptChunk S key (advance n rs.length) r)
      (x ++ encode S key n (rs ++ [r])) := by
  rw [encode_concat, ← append_assoc]
  exact h.append _

end

namespace SsReader

open CarrierIn

/-- What is staged and to come is the response and the chunks of `todo`, from counter `n` on. -/
def Expects (S : SsSuite) (stamp : ℕ) (b : SsReader) (key : Bytes32) (n : UInt64)
    (rest : Bytes) (todo : List Bytes) : Prop :=
  match b.resp with
  | none => b.readSubkey = key ∧ b.readCounter = n ∧
    match b.stagePhase with
    | .length => Staged encLenField b.stageBuf rest (encode S key n todo)
    | .payload len => ∃ r rs, todo = r :: rs ∧ r.length = len ∧ Staged (len + tagLen) b.stageBuf
      rest (S.encrypt key (counterNonce (n + 1)) r ++ encode S key (n + 2) rs)
  | some p => n = 2 ∧ b.readBuf = [] ∧ b.stageBuf = [] ∧ b.stagePhase = .length ∧
    ∃ header, IsResponse p.requestSalt stamp header ∧
      match p.respPhase with
      | .salt => ∃ salt : Vector UInt8 16, S.deriveSessionKey p.psk salt = key ∧
        Staged saltLen p.respStage rest
          (salt.toList ++ (encryptChunk S key 0 header ++ encode S key 2 todo))
      | .length => b.readSubkey = key ∧ b.readCounter = 0 ∧ Staged encLenField p.respStage rest
          (encryptChunk S key 0 header ++ encode S key 2 todo)
      | .header len => b.readSubkey = key ∧ b.readCounter = 0 ∧ header.length = len ∧
        Staged (len + tagLen) p.respStage rest
          (S.encrypt key (counterNonce 1) header ++ encode S key 2 todo)

/-- The stage is not complete. -/
def Short (b : SsReader) : Prop :=
  match b.resp with
  | none =>
    match b.stagePhase with
    | .length => b.stageBuf.length < encLenField
    | .payload len => b.stageBuf.length < len + tagLen
  | some p =>
    match p.respPhase with
    | .salt => p.respStage.length < saltLen
    | .length => p.respStage.length < encLenField
    | .header len => p.respStage.length < len + tagLen

variable {stamp nowSecs : ℕ} {b : SsReader} {p : Response} {rest tail stage header : Bytes}
  {todo : List Bytes} {w₀ : Wire UInt8} {s₀ : List ReadAnswer} {c : CarrierIn}

lemma Expects.concat (h : Expects S stamp b key n rest todo) :
    Expects S stamp b key n (rest ++ encryptChunk S key (advance n todo.length) r)
      (todo ++ [r]) := by
  obtain ⟨subkey, counter, readBuf, stageBuf, phase, resp⟩ := b
  cases resp with
  | none =>
    obtain ⟨hk, hn, hs⟩ := h
    refine ⟨hk, hn, ?_⟩
    cases phase with
    | length => exact Staged.concat (x := []) hs
    | payload len =>
      obtain ⟨r', rs, rfl, hl, hs⟩ := hs
      exact ⟨r', rs ++ [r], rfl, hl, hs.concat⟩
  | some p =>
    obtain ⟨rfl, hb, hs, hp, header, hh, hr⟩ := h
    refine ⟨rfl, hb, hs, hp, header, hh, ?_⟩
    obtain ⟨psk, salt, respPhase, respStage⟩ := p
    cases respPhase with
    | salt =>
      obtain ⟨salt, hk, hst⟩ := hr
      rw [← append_assoc] at hst
      refine ⟨salt, hk, ?_⟩
      rw [← append_assoc]
      exact hst.concat
    | length =>
      obtain ⟨hk, hc, hst⟩ := hr
      exact ⟨hk, hc, hst.concat⟩
    | header len =>
      obtain ⟨hk, hc, hl, hst⟩ := hr
      exact ⟨hk, hc, hl, hst.concat⟩

lemma gather_filled (target : ℕ) (h : Holds w₀ s₀ tail rest c) :
    ∃ r l c', gather target stage c = (r, stage ++ l, c') ∧
      Filled (Holds w₀ s₀ tail) (Stops w₀ s₀ tail) (Ends w₀ tail) (Fails w₀ s₀ tail)
        (target - stage.length) rest (r, l, c') := by
  have hf := fill_spec (fun room rest s hr hP => readOnce hr hP)
    (target - stage.length) (target - stage.length) rest c le_rfl h
  exact ⟨_, _, _, rfl, hf⟩

/-- The reading half expects the chunks of `todo`. -/
structure At (S : SsSuite) (stamp : ℕ) (key : Bytes32) (n : UInt64) (todo : List Bytes)
    (w₀ : Wire UInt8) (tail : Bytes) (b : SsReader) (c : CarrierIn) (rest : Bytes) : Prop where
  took : ∃ l, Took w₀ c.2.1 l
  yields : Yields c.1 (c.2.1.transit ++ tail) rest
  expects : Expects S stamp b key n rest todo

/-- The carrier or the wire has failed, or the response is too old. -/
def Broken (stamp nowSecs : ℕ) (w₀ : Wire UInt8) (s₀ : List ReadAnswer) (b : SsReader)
    (c : CarrierIn) : Prop :=
  ReadAnswer.failed ∈ s₀ ∨
    (w₀.ended = true ∧ c.2.1.transit = [] ∧
      ((∃ i ∈ c.1, i.inState ≠ .done) ∨ Clear c.1 ∧ b.resp ≠ none ∧ b.Short)) ∨
    timestampToleranceSecs < absDiff nowSecs stamp

section

variable (S : SsSuite) (stamp nowSecs : ℕ) (key : Bytes32) (n : UInt64)
  (todo : List Bytes) (w₀ : Wire UInt8) (s₀ : List ReadAnswer) (tail : Bytes) (room : ℕ)
  (b₀ : SsReader)

/-- What becomes of the reading of the response. -/
inductive RespRead : IoPoll Unit × SsReader × CarrierIn → Prop
  | done {b : SsReader} {c : CarrierIn} {rest : Bytes} (resp : b.resp = none)
    (h : Holds w₀ s₀ tail rest c) (expects : Expects S stamp b key n rest todo) :
    RespRead (.ready (), b, c)
  | pending {b : SsReader} {c : CarrierIn} {rest : Bytes} (waits : Stops w₀ s₀ tail rest c)
    (expects : Expects S stamp b key n rest todo) :
    RespRead (.pending, b, c)
  | failed {b : SsReader} {c : CarrierIn} {rest : Bytes} {e : IoError}
    (h : At S stamp key n todo w₀ tail b c rest) (why : Broken stamp nowSecs w₀ s₀ b c) :
    RespRead (.failed e, b, c)

/-- What becomes of the reading of a chunk. -/
inductive DataRead : IoPoll Bytes × SsReader × CarrierIn → Prop
  | chunk {b : SsReader} {c : CarrierIn} {rest r : Bytes} {rs : List Bytes}
    (next : todo = r :: rs) (buf : b.readBuf = r.drop room)
    (h : At S stamp key (n + 2) rs w₀ tail b c rest) :
    DataRead (.ready (r.take room), b, c)
  | pending {b : SsReader} {c : CarrierIn} {rest : Bytes} (buf : b.readBuf = [])
    (waits : Stops w₀ s₀ tail rest c) (expects : Expects S stamp b key n rest todo) :
    DataRead (.pending, b, c)
  | ended {b : SsReader} {c : CarrierIn} {rest : Bytes} (buf : b.readBuf = [])
    (resp : b.resp = none) (short : b.Short) (h : Ends w₀ tail rest c)
    (expects : Expects S stamp b key n rest todo) :
    DataRead (.ready [], b, c)
  | failed {b : SsReader} {c : CarrierIn} {rest : Bytes} {e : IoError} (buf : b.readBuf = [])
    (h : Fails w₀ s₀ tail e rest c) (expects : Expects S stamp b key n rest todo) :
    DataRead (.failed e, b, c)

/-- What becomes of a read. -/
inductive ReadTo : IoPoll Bytes × SsReader × CarrierIn → Prop
  | some {b : SsReader} {c : CarrierIn} {rest l : Bytes} (new : List Bytes)
    {rs : List Bytes} (next : todo = new ++ rs) (buf : b₀.readBuf ++ new.flatten = l ++ b.readBuf)
    (fits : l = [] → room = 0) (h : At S stamp key (advance n new.length) rs w₀ tail b c rest) :
    ReadTo (.ready l, b, c)
  | pending {b : SsReader} {c : CarrierIn} {rest : Bytes} (buf : b.readBuf = b₀.readBuf)
    (waits : Stops w₀ s₀ tail rest c) (expects : Expects S stamp b key n rest todo) :
    ReadTo (.pending, b, c)
  | ended {b : SsReader} {c : CarrierIn} {rest : Bytes} (buf : b.readBuf = b₀.readBuf)
    (empty : b.readBuf = []) (resp : b.resp = none) (short : b.Short) (h : Ends w₀ tail rest c)
    (expects : Expects S stamp b key n rest todo) :
    ReadTo (.ready [], b, c)
  | failed {b : SsReader} {c : CarrierIn} {rest : Bytes} {e : IoError}
    (buf : b.readBuf = b₀.readBuf) (h : At S stamp key n todo w₀ tail b c rest)
    (why : Broken stamp nowSecs w₀ s₀ b c) :
    ReadTo (.failed e, b, c)

end

/-- The reading half is between two chunks. -/
structure Idle (b : SsReader) : Prop where
  readBuf : b.readBuf = []
  stageBuf : b.stageBuf = []
  stagePhase : b.stagePhase = .length

section

variable {phase : RespPhase} {target : ℕ} {whole l : Bytes} {c' : CarrierIn} {e : IoError}

lemma respRead_unfinished (nowSecs : ℕ)
    (hex : ∀ {stage rest : Bytes}, Staged target stage rest whole →
      Expects S stamp (b.setResp p phase stage) key n rest todo)
    (hs : ∀ {stage : Bytes}, stage.length < target → (b.setResp p phase stage).Short)
    (hst : Staged target stage rest whole) {r : IoPoll Bool}
    (hf : Filled (Holds w₀ s₀ tail) (Stops w₀ s₀ tail) (Ends w₀ tail) (Fails w₀ s₀ tail)
      (target - stage.length) rest (r, l, c')) :
    match r with
    | .ready true => True
    | .pending => RespRead S stamp nowSecs key n todo w₀ s₀ tail
      (.pending, b.setResp p phase (stage ++ l), c')
    | _ => ∀ e, RespRead S stamp nowSecs key n todo w₀ s₀ tail
      (.failed e, b.setResp p phase (stage ++ l), c') := by
  cases hf with
  | full => trivial
  | pending came len h => exact .pending h (hex (hst.more came len).1)
  | failed came len h =>
    obtain ⟨l', took, yields, why⟩ := h
    refine fun e => .failed ⟨⟨l', took⟩, yields, hex (hst.more came len).1⟩ ?_
    rcases why with hfl | ⟨he, ht, hun⟩
    · exact .inl hfl
    · exact .inr (.inl ⟨he, ht, .inl hun⟩)
  | ended came len h =>
    obtain ⟨l', took, yields, he, ht, hc⟩ := h
    exact fun e => .failed ⟨⟨l', took⟩, yields, hex (hst.more came len).1⟩
      (.inr (.inl ⟨he, ht, .inr ⟨hc, nofun, hs (hst.more came len).2⟩⟩))

end

lemma readHeader_read (ideal : S.Ideal) (idle : b.Idle) (hk : b.readSubkey = key)
    (hc : b.readCounter = 0) (hh : IsResponse p.requestSalt stamp header)
    (hst : Staged (header.length + tagLen) stage rest
      (S.encrypt key (counterNonce 1) header ++ encode S key 2 todo))
    (h : Holds w₀ s₀ tail rest c) :
    RespRead S stamp nowSecs key 2 todo w₀ s₀ tail
      (readHeader S nowSecs b p header.length stage c) := by
  have hex {stage rest : Bytes} (hst : Staged (header.length + tagLen) stage rest
      (S.encrypt key (counterNonce 1) header ++ encode S key 2 todo)) :
      Expects S stamp (b.setResp p (.header header.length) stage) key 2 rest todo :=
    ⟨rfl, idle.readBuf, idle.stageBuf, idle.stagePhase, header, hh, hk, hc, rfl, hst⟩
  obtain ⟨r, l, c', hg, hf⟩ := gather_filled (header.length + tagLen) h
  rw [readHeader, hg]
  have hun := respRead_unfinished nowSecs hex (fun h => h) hst hf
  cases hf with
  | full came len h =>
    obtain ⟨hx, rfl⟩ := hst.full (ideal.length _ _ _) came len
    have ho : counterNonce (b.readCounter + 1) = counterNonce 1 := by rw [hc]; rfl
    simp only [hx, hk, ho, ideal.opens]
    cases hv : validateResponseHeader header p.requestSalt nowSecs with
    | none =>
      refine .done rfl h ⟨rfl, ?_, ?_⟩
      · rw [hc]
        rfl
      · simp only [idle.stagePhase, idle.stageBuf]
        exact ⟨zero_le _, rfl⟩
    | some msg =>
      obtain ⟨l', hr, yields⟩ := h
      refine .failed ⟨⟨l', hr.toTook⟩, yields, hex ⟨?_, rfl⟩⟩ ?_
      · exact (ideal.length _ _ _).le
      · refine .inr (.inr (not_le.1 fun hle => ?_))
        rw [hh.validate.2 hle] at hv
        cases hv
  | pending => exact hun
  | failed | ended => exact hun _

lemma readHeaderLen_read (ideal : S.Ideal) (idle : b.Idle) (hk : b.readSubkey = key)
    (hc : b.readCounter = 0) (hh : IsResponse p.requestSalt stamp header)
    (hst : Staged encLenField stage rest (encryptChunk S key 0 header ++ encode S key 2 todo))
    (h : Holds w₀ s₀ tail rest c) :
    RespRead S stamp nowSecs key 2 todo w₀ s₀ tail (readHeaderLen S nowSecs b p stage c) := by
  have hex {stage rest : Bytes} (hst : Staged encLenField stage rest
      (encryptChunk S key 0 header ++ encode S key 2 todo)) :
      Expects S stamp (b.setResp p .length stage) key 2 rest todo :=
    ⟨rfl, idle.readBuf, idle.stageBuf, idle.stagePhase, header, hh, hk, hc, hst⟩
  obtain ⟨r, l, c', hg, hf⟩ := gather_filled encLenField h
  rw [readHeaderLen, hg]
  have hun := respRead_unfinished nowSecs hex (fun h => h) hst hf
  cases hf with
  | full came len h =>
    rw [encryptChunk, append_assoc] at hst
    have hl := ideal.length key (counterNonce 0) (beBytes 2 header.length)
    obtain ⟨hx, rfl⟩ := hst.full hl came len
    have hn : beNat (beBytes 2 header.length) = header.length := beNat_beBytes hh.max
    simp only [hx, hk, hc, ideal.opens, hn]
    exact readHeader_read ideal idle hk hc hh ⟨zero_le _, rfl⟩ h
  | pending => exact hun
  | failed | ended => exact hun _

lemma readSalt_read (ideal : S.Ideal) (idle : b.Idle) {salt : Vector UInt8 16}
    (hk : S.deriveSessionKey p.psk salt = key)
    (hh : IsResponse p.requestSalt stamp header)
    (hst : Staged saltLen stage rest
      (salt.toList ++ (encryptChunk S key 0 header ++ encode S key 2 todo)))
    (h : Holds w₀ s₀ tail rest c) :
    RespRead S stamp nowSecs key 2 todo w₀ s₀ tail (readSalt S nowSecs b p stage c) := by
  have hex {stage rest : Bytes} (hst : Staged saltLen stage rest
      (salt.toList ++ (encryptChunk S key 0 header ++ encode S key 2 todo))) :
      Expects S stamp (b.setResp p .salt stage) key 2 rest todo :=
    ⟨rfl, idle.readBuf, idle.stageBuf, idle.stagePhase, header, hh, salt, hk, hst⟩
  obtain ⟨r, l, c', hg, hf⟩ := gather_filled saltLen h
  rw [readSalt, hg]
  have hun := respRead_unfinished nowSecs hex (fun h => h) hst hf
  cases hf with
  | full came len h =>
    obtain ⟨hx, rfl⟩ := hst.full (by simp [saltLen]) came len
    simp only [hx, vec_toList, hk]
    refine readHeaderLen_read ideal ⟨idle.readBuf, idle.stageBuf, idle.stagePhase⟩ rfl rfl
      hh ⟨zero_le _, rfl⟩ h
  | pending => exact hun
  | failed | ended => exact hun _

lemma pollReadResponse_read (ideal : S.Ideal) (nowSecs : ℕ)
    (hex : Expects S stamp b key n rest todo) (h : Holds w₀ s₀ tail rest c) :
    RespRead S stamp nowSecs key n todo w₀ s₀ tail (pollReadResponse S nowSecs b c) := by
  cases hr : b.resp with
  | none =>
    simp only [pollReadResponse, hr]
    exact .done hr h hex
  | some p =>
    simp only [Expects, hr] at hex
    obtain ⟨rfl, hb, hs, hph, header, hh, hex⟩ := hex
    have idle : b.Idle := ⟨hb, hs, hph⟩
    simp only [pollReadResponse, hr]
    cases hp : p.respPhase with
    | salt =>
      simp only [hp] at hex ⊢
      obtain ⟨salt, hk, hst⟩ := hex
      exact readSalt_read ideal idle hk hh hst h
    | length =>
      simp only [hp] at hex ⊢
      obtain ⟨hk, hc, hst⟩ := hex
      exact readHeaderLen_read ideal idle hk hc hh hst h
    | header len =>
      simp only [hp] at hex ⊢
      obtain ⟨hk, hc, rfl, hst⟩ := hex
      exact readHeader_read ideal idle hk hc hh hst h

lemma readPayload_read (ideal : S.Ideal) (hr : b.resp = none)
    (hb : b.readBuf = []) (hk : b.readSubkey = key) (hc : b.readCounter = n)
    (hst : Staged (r.length + tagLen) stage rest
      (S.encrypt key (counterNonce (n + 1)) r ++ encode S key (n + 2) rs))
    (h : Holds w₀ s₀ tail rest c) :
    DataRead S stamp key n (r :: rs) w₀ s₀ tail room (readPayload S b room r.length stage c) := by
  have hex {stage rest : Bytes} (hst : Staged (r.length + tagLen) stage rest
      (S.encrypt key (counterNonce (n + 1)) r ++ encode S key (n + 2) rs)) :
      Expects S stamp { b with stageBuf := stage, stagePhase := .payload r.length } key n rest
        (r :: rs) := by
    simp only [Expects, hr]
    exact ⟨hk, hc, r, rs, rfl, rfl, hst⟩
  obtain ⟨res, l, c', hg, hf⟩ := gather_filled (r.length + tagLen) h
  rw [readPayload, hg]
  cases hf with
  | @full _ rest' _ came len h =>
    obtain ⟨hx, rfl⟩ := hst.full (ideal.length _ _ _) came len
    obtain ⟨l', hrd, yields⟩ := h
    simp only [hx, hk, hc, ideal.opens]
    refine .chunk rfl rfl ⟨⟨l', hrd.toTook⟩, yields, ?_⟩
    simp only [Expects, hr]
    exact ⟨trivial, trivial, zero_le _, rfl⟩
  | pending came len h => exact .pending hb h (hex (hst.more came len).1)
  | failed came len h => exact .failed hb h (hex (hst.more came len).1)
  | ended came len h =>
    refine .ended hb hr ?_ h (hex (hst.more came len).1)
    simp only [Short, hr]
    exact (hst.more came len).2

lemma readLength_read (ideal : S.Ideal) (hr : b.resp = none) (hb : b.readBuf = [])
    (hp : b.stagePhase = .length) (hk : b.readSubkey = key) (hc : b.readCounter = n)
    (hs : ∀ r ∈ todo, r.length ≤ maxPayloadChunk)
    (hst : Staged encLenField stage rest (encode S key n todo)) (h : Holds w₀ s₀ tail rest c) :
    DataRead S stamp key n todo w₀ s₀ tail room (readLength S b room stage c) := by
  have hex {stage rest : Bytes} (hst : Staged encLenField stage rest (encode S key n todo)) :
      Expects S stamp { b with stageBuf := stage } key n rest todo := by
    simp only [Expects, hr, hp]
    exact ⟨hk, hc, hst⟩
  obtain ⟨res, l, c', hg, hf⟩ := gather_filled encLenField h
  rw [readLength, hg]
  cases hf with
  | @full _ rest' _ came len h =>
    cases todo with
    | nil =>
      -- The stage cannot be full if there is no chunk.
      have heq := congrArg length hst.eq
      rw [came, length_append, length_append] at heq
      have hle := hst.le
      simp only [encode, length_nil, encLenField] at heq len hle
      omega
    | cons r rs =>
      rw [encode, encryptChunk, append_assoc] at hst
      have hl := ideal.length key (counterNonce n) (beBytes 2 r.length)
      obtain ⟨hx, rfl⟩ := hst.full hl came len
      have hm : r.length < 256 ^ 2 :=
        lt_of_le_of_lt (hs r mem_cons_self) (by decide)
      simp only [hx, hk, hc, ideal.opens, beNat_beBytes hm]
      exact readPayload_read ideal hr hb hk hc ⟨zero_le _, rfl⟩ h
  | pending came len h => exact .pending hb h (hex (hst.more came len).1)
  | failed came len h => exact .failed hb h (hex (hst.more came len).1)
  | ended came len h =>
    refine .ended hb hr ?_ h (hex (hst.more came len).1)
    simp only [Short, hr, hp]
    exact (hst.more came len).2

lemma pollStagedRead_read (ideal : S.Ideal) (room : ℕ) (hr : b.resp = none)
    (hb : b.readBuf = []) (hs : ∀ r ∈ todo, r.length ≤ maxPayloadChunk)
    (hex : Expects S stamp b key n rest todo) (h : Holds w₀ s₀ tail rest c) :
    DataRead S stamp key n todo w₀ s₀ tail room (pollStagedRead S b room c) := by
  simp only [Expects, hr] at hex
  obtain ⟨hk, hc, hex⟩ := hex
  cases hp : b.stagePhase with
  | length =>
    simp only [hp] at hex
    simp only [pollStagedRead, hp]
    exact readLength_read ideal hr hb hp hk hc hs hex h
  | payload len =>
    simp only [hp] at hex
    obtain ⟨r, rs, rfl, rfl, hst⟩ := hex
    simp only [pollStagedRead, hp]
    exact readPayload_read ideal hr hb hk hc hst h

lemma readHeader_readBuf (len : ℕ) :
    (readHeader S nowSecs b p len stage c).2.1.readBuf = b.readBuf := by
  rw [readHeader]
  split
  · rfl
  · rfl
  · rfl
  · split
    · rfl
    · split <;> rfl

lemma readHeaderLen_readBuf : (readHeaderLen S nowSecs b p stage c).2.1.readBuf = b.readBuf := by
  rw [readHeaderLen]
  split
  · rfl
  · rfl
  · rfl
  · split
    · rfl
    · exact readHeader_readBuf _

lemma pollReadResponse_readBuf : (pollReadResponse S nowSecs b c).2.1.readBuf = b.readBuf := by
  rw [pollReadResponse]
  split
  · rfl
  split
  · rw [readSalt]
    split
    · rfl
    · rfl
    · rfl
    · exact readHeaderLen_readBuf
  · exact readHeaderLen_readBuf
  · exact readHeader_readBuf _

lemma take_eq_nil (hr : r ≠ []) (h : r.take room = []) : room = 0 := by
  rcases take_eq_nil_iff.1 h with h | h
  · exact h
  · exact absurd h hr

lemma pollRead_readTo (ideal : S.Ideal) (hs : ∀ r ∈ todo, 0 < r.length ∧ r.length ≤ maxPayloadChunk)
    (hex : Expects S stamp b key n rest todo) (h : Holds w₀ s₀ tail rest c) :
    ReadTo S stamp nowSecs key n todo w₀ s₀ tail room b (b.pollRead S nowSecs room c) := by
  have hr := pollReadResponse_read ideal nowSecs hex h
  have hb : (pollReadResponse S nowSecs b c).2.1.readBuf = b.readBuf := pollReadResponse_readBuf
  rw [pollRead]
  generalize pollReadResponse S nowSecs b c = r at hr hb
  cases hr with
  | pending waits expects => exact .pending hb waits expects
  | failed h why => exact .failed hb h why
  | @done b₁ c₁ rest₁ resp h expects =>
    simp only at hb ⊢
    split_ifs with he
    · have hd := pollStagedRead_read ideal room resp he (fun r hr => (hs r hr).2) expects h
      generalize pollStagedRead S b₁ room c₁ = r at hd
      rw [he] at hb
      cases hd with
      | @chunk b₂ c₂ rest₂ r rs next buf h =>
        have hp := (hs r (next ▸ mem_cons_self)).1
        refine .some [r] next ?_ (take_eq_nil (ne_nil_of_length_pos hp)) h
        simp [← hb, buf]
      | pending buf waits expects => exact .pending (buf.trans hb) waits expects
      | ended buf resp short h expects =>
        exact .ended (buf.trans hb) buf resp short h expects
      | failed buf h expects =>
        obtain ⟨l, took, yields, why⟩ := h
        refine .failed (buf.trans hb) ⟨⟨l, took⟩, yields, expects⟩ ?_
        rcases why with hf | ⟨hen, ht, hun⟩
        · exact .inl hf
        · exact .inr (.inl ⟨hen, ht, .inl hun⟩)
    · obtain ⟨l, hrd, yields⟩ := h
      refine .some [] rfl ?_ (take_eq_nil he) ⟨⟨l, hrd.toTook⟩, yields, ?_⟩
      · rw [← hb, flatten_nil, append_nil]
        exact (take_append_drop _ _).symm
      · simp only [Expects, resp] at expects ⊢
        exact expects

end SsReader

end Mirage.Transport
