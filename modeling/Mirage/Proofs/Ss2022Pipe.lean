import Mirage.Lib.Runs
import Mirage.Proofs.Ss2022Halves

/-!
# The SS-2022 stream is a byte stream

What is staged, in transit, held by the carrier and still owed make up the chunks that have not been
read (`Pipe.Link`).
-/

namespace Mirage.Transport

open Words Wires Wires.Wire Nat
open List hiding Vector

variable {script : List ReadAnswer} {rest : Bytes} {room nowSecs : ℕ}

namespace Pipe

open CarrierOut CarrierIn SsReader

/-- The bytes up to `stop` end with the handshake or within it, or with a chunk. -/
def Boundary (start : ℕ) (ranges : List Bytes) (stop : ℕ) : Prop :=
  stop ≤ start ∨ ∃ k ≤ ranges.length, stop = start + encodedLen (ranges.take k)

/-- The ranges `done` have been read, and `todo` is what the wire and then `tail` carry. -/
structure Flow (S : SsSuite) (stamp : ℕ) (p : Pipe) (tail : Bytes) (done todo : List Bytes) :
    Prop where
  ranges : p.ranges = done ++ todo
  sizes : ∀ r ∈ p.ranges, 0 < r.length ∧ r.length ≤ maxPayloadChunk
  taken : p.wire.taken ≤ p.wire.sent.length
  length : p.wire.sent.length + tail.length = p.start + encodedLen p.ranges
  read : done.flatten = p.delivered ++ p.reader.readBuf
  expects : ∃ key n rest, Yields p.inn (p.wire.transit ++ tail) rest ∧
    Expects S stamp p.reader key n rest todo ∧
    (p.wire.closed = false →
      p.writer.writeSubkey = key ∧ p.writer.writeCounter = advance n todo.length)
  stop : p.wire.cut = true → Boundary p.start p.ranges p.wire.sent.length

def backlog (p : Pipe) : Bytes := restOf p.out ++ p.writer.rest.drop (stagedOf p.out)

/-- What is staged, in transit and owed make up the chunks to be read. -/
structure Link (S : SsSuite) (stamp : ℕ) (p : Pipe) (tail : Bytes) (done todo : List Bytes) :
    Prop extends Flow S stamp p tail done todo where
  valid : ∀ o ∈ p.out, o.Valid
  staged : stagedOf p.out ≤ p.writer.rest.length
  owed : p.wire.cut = false → p.wire.closed = false → tail = p.backlog
  all : p.wire.cut = false → p.wire.closed = true → tail = []

variable {S : SsSuite} {key : Bytes32} {n : UInt64} {r : Bytes} {rs : List Bytes}
  {stamp : ℕ} {p : Pipe} {tail added l : Bytes} {done todo : List Bytes}

lemma Boundary.concat {start stop : ℕ} (h : Boundary start rs stop) :
    Boundary start (rs ++ [r]) stop := by
  rcases h with h | ⟨k, hk, h⟩
  · exact .inl h
  refine .inr ⟨k, ?_, ?_⟩
  · rw [length_append]
    omega
  · rw [h, take_append_of_le_length hk]

lemma Flow.put (h : Flow S stamp p (l ++ tail) done todo) (hc : p.wire.cut = false) :
    Flow S stamp { p with wire := p.wire.put l } tail done todo := by
  have hs : (p.wire.put l).sent.length = p.wire.sent.length + l.length := by
    rw [sent_put hc, length_append]
  obtain ⟨key, n, rest, hy, he, hw⟩ := h.expects
  refine ⟨h.ranges, h.sizes, ?_, ?_, h.read, ⟨key, n, rest, ?_, he, ?_⟩, ?_⟩
  · rw [taken_put, hs]
    exact le_add_right_of_le h.taken
  · have := h.length
    rw [length_append] at this
    simp only [hs]
    omega
  · rwa [transit_put hc h.taken, append_assoc]
  · rwa [closed_put]
  · rw [cut_put, hc]
    exact nofun

lemma Flow.accept (ideal : S.Ideal) (h : Flow S stamp p tail done todo)
    (hw : p.wire.closed = false) (hr : 0 < r.length ∧ r.length ≤ maxPayloadChunk) {b : SsWriter}
    (hk : b.writeSubkey = p.writer.writeSubkey)
    (hcn : b.writeCounter = p.writer.writeCounter + 2) :
    Flow S stamp { p with writer := b, ranges := p.ranges ++ [r] }
      (tail ++ encryptChunk S p.writer.writeSubkey p.writer.writeCounter r) done
      (todo ++ [r]) := by
  obtain ⟨key, n, rest, hy, he, hwr⟩ := h.expects
  obtain ⟨rfl, hn⟩ := hwr hw
  refine ⟨?_, ?_, h.taken, ?_, h.read, ⟨p.writer.writeSubkey, n, _, ?_, he.concat, ?_⟩,
    fun hc => (h.stop hc).concat⟩
  · rw [h.ranges, append_assoc]
  · rw [forall_mem_append]
    exact ⟨h.sizes, fun r' hr' => mem_singleton.1 hr' ▸ hr⟩
  · have := h.length
    rw [length_append, length_encryptChunk ideal, encodedLen_append, encodedLen_cons]
    simp only [encodedLen, map_nil, sum_nil, add_zero] at this ⊢
    omega
  · rw [← hn, ← append_assoc]
    exact hy.append _
  · intro _
    refine ⟨hk, ?_⟩
    rw [hcn, hn, length_append, ← advance_add]
    rfl

lemma Flow.writer (h : Flow S stamp p tail done todo) {b : SsWriter}
    (hb : p.wire.closed = false → SsWriter.Same p.writer b) :
    Flow S stamp { p with writer := b } tail done todo := by
  obtain ⟨key, n, rest, hy, he, hwr⟩ := h.expects
  refine ⟨h.ranges, h.sizes, h.taken, h.length, h.read, ⟨key, n, rest, hy, he, ?_⟩, h.stop⟩
  intro hw
  obtain ⟨hk, hc⟩ := hb hw
  exact ⟨hk.trans (hwr hw).1, hc.trans (hwr hw).2⟩

section

variable {b : SsWriter} {out : Option WuOut} {wire : Wire UInt8} {script : List WriteAnswer}
  {owed : Bytes}

variable (h : Link S stamp p tail done todo)

include h

lemma Link.owes (hs : Sane script) : Owes p.wire p.backlog p.writer.rest (p.out, p.wire, script) :=
  ⟨h.valid, h.staged, hs, [], put_nil.symm, fun _ => rfl, rfl⟩

lemma Link.of_closed (hw : p.wire.closed = true)
    (ho : Owes p.wire owed b.rest (out, wire, script)) :
    Link S stamp { p with writer := b, out := out, wire := wire } tail done todo := by
  obtain ⟨l, rfl, hl, -⟩ := ho.sends.moved
  obtain rfl := hl hw
  rw [put_nil] at ho ⊢
  have hn : p.wire.closed ≠ false := by
    rw [hw]
    exact nofun
  have hf : Flow S stamp { p with writer := b } tail done todo :=
    h.toFlow.writer fun hon => absurd hon hn
  exact ⟨⟨hf.ranges, hf.sizes, hf.taken, hf.length, hf.read, hf.expects,
    hf.stop⟩, ho.valid, ho.staged, fun _ hon => absurd hon hn, h.all⟩

lemma Link.of_open (hw : p.wire.closed = false) {ranges todo' : List Bytes}
    (hf : Flow S stamp { p with writer := b, ranges := ranges } (tail ++ added) done todo')
    (ho : Owes p.wire (p.backlog ++ added) b.rest (out, wire, script)) :
    ∃ tail', Link S stamp { p with writer := b, out := out, wire := wire, ranges := ranges } tail'
      done todo' := by
  obtain ⟨l, rfl, -, hl⟩ := ho.sends.moved
  rcases Bool.eq_false_or_eq_true p.wire.cut with hc | hc
  · rw [put_of_cut hc] at ho ⊢
    refine ⟨tail ++ added, ⟨hf.ranges, hf.sizes, hf.taken, hf.length, hf.read,
      hf.expects, hf.stop⟩, ho.valid, ho.staged, fun hc' => ?_, fun hc' => ?_⟩
    · rw [hc] at hc'
      cases hc'
    · rw [hc] at hc'
      cases hc'
  · rw [h.owed hc hw, hl] at hf
    have hp := hf.put hc
    refine ⟨_, ⟨hp.ranges, hp.sizes, hp.taken, hp.length, hp.read, hp.expects,
      hp.stop⟩, ho.valid, ho.staged, fun _ _ => rfl, fun _ hw' => ?_⟩
    rw [closed_put, hw] at hw'
    cases hw'

lemma Link.sends (hb : SsWriter.Same p.writer b)
    (ho : Owes p.wire p.backlog b.rest (out, wire, script)) :
    ∃ tail', Link S stamp { p with writer := b, out := out, wire := wire } tail' done todo := by
  rcases Bool.eq_false_or_eq_true p.wire.closed with hw | hw
  · exact ⟨tail, h.of_closed hw ho⟩
  have hf : Flow S stamp { p with writer := b } (tail ++ []) done todo := by
    rw [append_nil]
    exact h.toFlow.writer fun _ => hb
  rw [← append_nil p.backlog] at ho
  exact h.of_open hw hf ho

lemma Link.close (hr : restOf p.out = []) (hb : p.writer.rest = []) :
    Link S stamp { p with wire := { p.wire with closed := true } } tail done todo := by
  obtain ⟨key, n, rest, hy, he, -⟩ := h.expects
  refine ⟨⟨h.ranges, h.sizes, h.taken, h.length, h.read, ⟨key, n, rest, hy, he, nofun⟩,
    h.stop⟩, h.valid, h.staged, nofun, fun hc _ => ?_⟩
  rcases Bool.eq_false_or_eq_true p.wire.closed with hw | hw
  · exact h.all hc hw
  · rw [h.owed hc hw, backlog, hr, hb, drop_nil, append_nil]

end

lemma Link.cut (h : Link S stamp p tail done todo) {pos : ℕ}
    (hst : Boundary p.start p.ranges (p.wire.cutAt pos).sent.length) :
    ∃ tail', Link S stamp { p with wire := p.wire.cutAt pos } tail' done todo := by
  obtain ⟨key, n, rest, hy, he, hw⟩ := h.expects
  have ht := h.taken
  have hl : (p.wire.cutAt pos).sent.length = min (max pos p.wire.taken) p.wire.sent.length :=
    length_take
  refine ⟨p.wire.sent.drop (max pos p.wire.taken) ++ tail, ⟨h.ranges, h.sizes, ?_, ?_, h.read,
    ⟨key, n, rest, ?_, he, hw⟩, fun _ => hst⟩, h.valid, h.staged, nofun, nofun⟩
  · change p.wire.taken ≤ (p.wire.cutAt pos).sent.length
    omega
  · have := h.length
    simp only [hl, length_append, length_drop]
    omega
  have hs : (p.wire.cutAt pos).transit ++ p.wire.sent.drop (max pos p.wire.taken) =
      p.wire.transit := by
    have hd : p.wire.transit.drop (max pos p.wire.taken - p.wire.taken) =
        p.wire.sent.drop (max pos p.wire.taken) := by
      rw [transit, drop_drop]
      congr 1
      omega
    rw [transit, cutAt, drop_take, ← hd]
    exact take_append_drop _ _
  rwa [← append_assoc, hs]

lemma Link.reads (h : Link S stamp p tail done todo)
    {new : List Bytes} {reader : SsReader} {inn : Option WuIn} {wire : Wire UInt8}
    (ht : todo = new ++ rs) (hwr : p.wire.closed = false →
      p.writer.writeSubkey = key ∧ p.writer.writeCounter = advance n todo.length)
    (hb : p.reader.readBuf ++ new.flatten = l ++ reader.readBuf)
    (hat : At S stamp key (advance n new.length) rs p.wire tail reader (inn, wire, script) rest) :
    Link S stamp { p with reader := reader, inn := inn, wire := wire,
                          delivered := p.delivered ++ l } tail (done ++ new) rs := by
  obtain ⟨⟨read, took⟩, hy, he⟩ := hat
  have htk := took.taken_le h.taken
  obtain rfl := took.wire
  refine ⟨⟨?_, h.sizes, htk, h.length, ?_, ⟨key, _, rest, hy, he, ?_⟩, h.stop⟩,
    h.valid, h.staged, h.owed, h.all⟩
  · rw [append_assoc, ← ht]
    exact h.ranges
  · rw [flatten_append, h.read, append_assoc, hb, append_assoc]
  · intro hw
    rw [advance_add, ← length_append, ← ht]
    exact hwr hw

/-- A shutdown comes when nothing is left of a chunk, and the wire does not end within one. -/
def Orderly (p : Pipe) : PipeEvent → Prop
  | .write _ script => Sane script
  | .flush script => Sane script
  | .shutdown script => Sane script ∧ p.writer.rest = []
  | .read _ _ _ => True
  | .cut pos => Boundary p.start p.ranges (p.wire.cutAt pos).sent.length

def Linked (S : SsSuite) (stamp : ℕ) (p : Pipe) : Prop :=
  ∃ tail done todo, Link S stamp p tail done todo

lemma Link.todo_sizes (h : Link S stamp p tail done todo) :
    ∀ r ∈ todo, 0 < r.length ∧ r.length ≤ maxPayloadChunk := by
  intro r hr
  refine h.sizes r ?_
  rw [h.ranges]
  exact mem_append_right done hr

lemma Link.pollRead (ideal : S.Ideal) (h : Link S stamp p tail done todo) (room nowSecs : ℕ)
    (script : List ReadAnswer) : ∃ key n, (p.wire.closed = false →
        p.writer.writeSubkey = key ∧ p.writer.writeCounter = advance n todo.length) ∧
      ReadTo S stamp nowSecs key n todo p.wire script tail room p.reader
        (p.reader.pollRead S nowSecs room (p.inn, p.wire, script)) := by
  obtain ⟨key, n, rest, hy, he, hw⟩ := h.expects
  exact ⟨key, n, hw, pollRead_readTo ideal h.todo_sizes he ⟨[], .refl, hy⟩⟩

lemma linked_write (ideal : S.Ideal) (h : Link S stamp p tail done todo) (data : Bytes)
    {script : List WriteAnswer} (hs : Sane script) :
    Linked S stamp (p.step S (.write data script)) := by
  have hw := SsWriter.pollWrite_written ideal data (h.owes hs)
  simp only [step]
  generalize p.writer.pollWrite S data (p.out, p.wire, script) = r at hw
  cases hw with
  | @kept r b c none same ho =>
    obtain ⟨tail', h'⟩ := h.sends same ho
    cases r with
    | pending | failed e => exact ⟨_, _, _, h'⟩
    | ready n =>
      obtain rfl := none n rfl
      exact ⟨_, _, _, h'⟩
  | @refused e b c owed closed ho => exact ⟨_, _, _, h.of_closed closed ho⟩
  | @accepted n b c opened pos le max hk counter ho =>
    have hl : (data.take n).length = n := length_take_of_le le
    have hf := h.toFlow.accept (r := data.take n) ideal opened ⟨by omega, by omega⟩ hk counter
    obtain ⟨tail', h'⟩ := h.of_open opened hf ho
    simp only [if_neg (ne_of_gt pos)]
    exact ⟨_, _, _, h'⟩

lemma linked_shutdown (h : Link S stamp p tail done todo) {script : List WriteAnswer}
    (hs : Sane script) (hr : p.writer.rest = []) :
    Linked S stamp (p.step S (.shutdown script)) := by
  have hsh := pollShutdown_shut (h.owes hs)
  simp only [step, SsWriter.pollShutdown]
  generalize CarrierOut.pollShutdown (p.out, p.wire, script) = r at hsh
  cases hsh with
  | pending ho | failed ho =>
    obtain ⟨tail', h'⟩ := h.sends ⟨rfl, rfl⟩ ho
    exact ⟨_, _, _, h'⟩
  | done rest ho =>
    obtain ⟨tail', h'⟩ := h.sends ⟨rfl, rfl⟩ ho
    exact ⟨_, _, _, h'.close rest hr⟩

lemma linked_read (ideal : S.Ideal) (h : Link S stamp p tail done todo) :
    Linked S stamp (p.step S (.read room nowSecs script)) := by
  obtain ⟨key, n, hw, hr⟩ := h.pollRead ideal room nowSecs script
  have hs {reader : SsReader} {c : CarrierIn} {rest : Bytes}
      (hb : reader.readBuf = p.reader.readBuf)
      (hat : At S stamp key n todo p.wire tail reader c rest) :
      Link S stamp { p with reader := reader, inn := c.1, wire := c.2.1,
                            delivered := p.delivered ++ [] } tail (done ++ []) todo :=
    h.reads rfl hw (by simp [hb]) hat
  simp only [append_nil] at hs
  simp only [step]
  generalize p.reader.pollRead S nowSecs room (p.inn, p.wire, script) = r at hr
  cases hr with
  | some new next buf fits hat => exact ⟨_, _, _, h.reads next hw buf hat⟩
  | pending buf waits expects =>
    obtain ⟨l, took, -, yields⟩ := waits
    exact ⟨_, _, _, hs buf ⟨⟨l, took⟩, yields, expects⟩⟩
  | ended buf empty resp short ends expects =>
    obtain ⟨l, took, yields, -⟩ := ends
    simp only [append_nil]
    exact ⟨_, _, _, hs buf ⟨⟨l, took⟩, yields, expects⟩⟩
  | failed buf hat why => exact ⟨_, _, _, hs buf hat⟩

lemma linked_step (ideal : S.Ideal) (p : Pipe) (e : PipeEvent) (h : Linked S stamp p)
    (he : Orderly p e) : Linked S stamp (p.step S e) := by
  obtain ⟨tail, done, todo, h⟩ := h
  cases e with
  | write data script => exact linked_write ideal h data he
  | flush script =>
    obtain ⟨same, ho⟩ := SsWriter.pollFlush_owes (h.owes he)
    obtain ⟨tail', h'⟩ := h.sends same ho
    exact ⟨_, _, _, h'⟩
  | shutdown script => exact linked_shutdown h he.1 he.2
  | read room nowSecs script => exact linked_read ideal h
  | cut pos =>
    obtain ⟨tail', h'⟩ := h.cut he
    exact ⟨_, _, _, h'⟩

lemma encodedLen_take_drop (rs : List Bytes) (k : ℕ) :
    encodedLen (rs.take k) + encodedLen (rs.drop k) = encodedLen rs := by
  rw [← encodedLen_append, take_append_drop]

lemma encodedLen_pos (h : rs ≠ []) : 0 < encodedLen rs := by
  obtain ⟨r, rs, rfl⟩ := exists_cons_of_ne_nil h
  rw [encodedLen_cons, chunkLen, encLenField]
  omega

lemma left_of_short (ideal : S.Ideal) {b : SsReader} (hr : b.resp = none) (hs : b.Short)
    (h : Expects S stamp b key n rest todo) : todo = [] ∧ rest = [] ∨
      ∃ r rs, todo = r :: rs ∧ encodedLen rs < rest.length ∧ rest.length ≤ encodedLen todo := by
  simp only [Expects, hr] at h
  simp only [Short, hr] at hs
  obtain ⟨-, -, h⟩ := h
  cases hp : b.stagePhase with
  | length =>
    simp only [hp] at h hs
    have hl := congrArg length h.eq
    rw [length_append, length_encode ideal] at hl
    cases todo with
    | nil =>
      refine .inl ⟨rfl, eq_nil_of_length_eq_zero ?_⟩
      simp only [encodedLen, map_nil, sum_nil] at hl
      omega
    | cons r rs =>
      refine .inr ⟨r, rs, rfl, ?_, by omega⟩
      rw [encodedLen_cons, chunkLen] at hl
      omega
  | payload len =>
    simp only [hp] at h hs
    obtain ⟨r, rs, rfl, rfl, hst⟩ := h
    have hl := congrArg length hst.eq
    rw [length_append, length_append, length_encode ideal, ideal.length] at hl
    refine .inr ⟨r, rs, rfl, by omega, ?_⟩
    rw [encodedLen_cons, chunkLen]
    omega

lemma eq_length_of_left {left k : ℕ} (hk : k ≤ (done ++ todo).length)
    (hl : left = encodedLen ((done ++ todo).drop k))
    (h : todo = [] ∧ left = 0 ∨
      ∃ r rs, todo = r :: rs ∧ encodedLen rs < left ∧ left ≤ encodedLen todo) :
    k = done.length := by
  rcases lt_trichotomy k done.length with hlt | heq | hgt
  · rw [drop_append_of_le_length hlt.le, encodedLen_append] at hl
    have hp : 0 < encodedLen (done.drop k) := encodedLen_pos (by simpa using hlt)
    rcases h with ⟨rfl, h0⟩ | ⟨r, rs, -, -, hle⟩ <;> omega
  · exact heq
  rw [drop_append, drop_eq_nil_of_le hgt.le, nil_append] at hl
  rcases h with ⟨rfl, -⟩ | ⟨r, rs, rfl, hlt, -⟩
  · simp only [append_nil] at hk
    omega
  obtain ⟨j, hj⟩ : ∃ j, k - done.length = j + 1 := ⟨k - done.length - 1, by omega⟩
  rw [hj, drop_succ_cons] at hl
  have := encodedLen_take_drop rs j
  omega

lemma Link.clean_end (ideal : S.Ideal) (h : Link S stamp p tail done todo) (hrm : 0 < room)
    (hr : p.read S room nowSecs script = .ready []) :
    p.wire.ended = true ∧ p.wire.sent.length = p.start + encodedLen done ∧
      p.delivered = done.flatten ∧ (p.wire.cut = false → todo = []) := by
  obtain ⟨key, n, -, hrd⟩ := h.pollRead ideal room nowSecs script
  rw [Pipe.read] at hr
  generalize p.reader.pollRead S nowSecs room (p.inn, p.wire, script) = r at hrd hr
  cases hrd with
  | pending | failed => cases hr
  | some new next buf fits hat =>
    injection hr with hl
    exact absurd (fits hl) (ne_of_gt hrm)
  | @ended b c rest buf empty resp short ends expects =>
    obtain ⟨l, took, yields, ended, transit, clear⟩ := ends
    rw [yields_of_clear clear, transit, nil_append] at yields
    subst yields
    have hlf := left_of_short ideal resp short expects
    have hln := h.length
    have hrd : p.delivered = done.flatten := by rw [h.read, ← buf, empty, append_nil]
    rcases Bool.eq_false_or_eq_true p.wire.cut with hc | hc
    · have hk : ∃ k ≤ p.ranges.length,
          p.wire.sent.length = p.start + encodedLen (p.ranges.take k) := by
        rcases h.stop hc with hle | hk
        · refine ⟨0, zero_le _, ?_⟩
          have hd : encodedLen todo ≤ encodedLen p.ranges := by
            rw [h.ranges, encodedLen_append]
            omega
          have hz : encodedLen (p.ranges.take 0) = 0 := rfl
          rcases hlf with ⟨rfl, rfl⟩ | ⟨-, -, -, -, hlx⟩
          · simp only [length_nil] at hln
            omega
          · omega
        · exact hk
      obtain ⟨k, hk, hs⟩ := hk
      have ht : tail.length = encodedLen ((done ++ todo).drop k) := by
        have := encodedLen_take_drop p.ranges k
        rw [← h.ranges]
        omega
      have hl' : todo = [] ∧ tail.length = 0 ∨ ∃ r rs, todo = r :: rs ∧
          encodedLen rs < tail.length ∧ tail.length ≤ encodedLen todo :=
        hlf.imp_left fun h => ⟨h.1, by rw [h.2]; rfl⟩
      have heq := eq_length_of_left (h.ranges ▸ hk) ht hl'
      refine ⟨ended, ?_, hrd, fun hc' => ?_⟩
      · rw [hs, heq, h.ranges, take_left]
      · rw [hc] at hc'
        cases hc'
    · have hw : p.wire.closed = true := by simpa only [Wire.ended, hc, Bool.or_false] using ended
      have ht := h.all hc hw
      rcases hlf with ⟨rfl, -⟩ | ⟨r, rs, -, hlt, -⟩
      · refine ⟨ended, ?_, hrd, fun _ => rfl⟩
        rw [ht, h.ranges, append_nil] at hln
        exact hln
      · rw [ht] at hlt
        exact absurd hlt (not_lt_zero _)

lemma not_short_of_nil (ideal : S.Ideal) {b : SsReader} (hr : b.resp ≠ none)
    (h : Expects S stamp b key n [] todo) : ¬ b.Short := by
  obtain ⟨subkey, counter, readBuf, stageBuf, phase, _ | ⟨psk, reqSalt, respPhase, respStage⟩⟩ := b
  · exact absurd rfl hr
  obtain ⟨-, -, -, -, header, -, h⟩ := h
  cases respPhase with
  | salt =>
    obtain ⟨salt, -, hst⟩ := h
    have hl : (respStage ++ []).length = _ := congrArg length hst.eq
    simp only [append_nil, length_append, Vector.length_toList] at hl
    change ¬ respStage.length < 16
    omega
  | length =>
    obtain ⟨-, -, hst⟩ := h
    have hl : (respStage ++ []).length = _ := congrArg length hst.eq
    rw [append_nil, length_append, length_encryptChunk ideal, chunkLen] at hl
    change ¬ respStage.length < encLenField
    omega
  | header len =>
    obtain ⟨-, -, rfl, hst⟩ := h
    have hl : (respStage ++ []).length = _ := congrArg length hst.eq
    rw [append_nil, length_append, ideal.length] at hl
    change ¬ respStage.length < header.length + tagLen
    omega

lemma done_of_yields_nil {i : WuIn} (h : i.Yields [] rest) : i.inState = .done := by
  obtain ⟨st, buf⟩ := i
  cases st with
  | done => rfl
  | needLen =>
    obtain ⟨-, b, body, -, -, h⟩ := h
    cases h
  | needBody remaining =>
    obtain ⟨-, hp, body, hl, -, h⟩ := h
    obtain ⟨rfl, -⟩ := append_eq_nil_iff.1 h.symm
    exact absurd hl (Nat.ne_of_lt hp)

lemma Link.read_ready (ideal : S.Ideal) (h : Link S stamp p tail done todo)
    (hw : p.wire.closed = true) (hc : p.wire.cut = false) (hs : Prompt p.wire script)
    (hfr : absDiff nowSecs stamp ≤ timestampToleranceSecs) :
    ∃ l, p.read S room nowSecs script = .ready l := by
  have he : p.wire.ended = true := by rw [Wire.ended, hw, Bool.true_or]
  obtain ⟨key, n, -, hr⟩ := h.pollRead ideal room nowSecs script
  rw [Pipe.read]
  generalize p.reader.pollRead S nowSecs room (p.inn, p.wire, script) = r at hr
  cases hr with
  | some | ended => exact ⟨_, rfl⟩
  | pending buf waits expects =>
    obtain ⟨l, took, waits, -⟩ := waits
    exact absurd waits (hs.not_waits he took)
  | @failed b c rest e buf hat why =>
    have hy := hat.yields
    rw [h.all hc hw, append_nil] at hy
    rcases why with hf | ⟨-, ht, hun⟩ | hst
    · exact absurd hf hs.not_failed
    · rw [ht] at hy
      rcases hun with ⟨i, hi, hn⟩ | ⟨clear, hrs, hsh⟩
      · rw [Option.mem_def.1 hi] at hy
        exact absurd (done_of_yields_nil hy) hn
      · rw [yields_of_clear clear] at hy
        subst hy
        exact absurd hsh (not_short_of_nil ideal hrs hat.expects)
    · omega

lemma Link.read_ne_pending (ideal : S.Ideal) (h : Link S stamp p tail done todo)
    (he : p.wire.ended = true) (hs : Prompt p.wire script) :
    p.read S room nowSecs script ≠ .pending := by
  obtain ⟨key, n, -, hr⟩ := h.pollRead ideal room nowSecs script
  rw [Pipe.read]
  generalize p.reader.pollRead S nowSecs room (p.inn, p.wire, script) = r at hr
  cases hr with
  | some | ended | failed => exact nofun
  | pending buf waits expects =>
    obtain ⟨l, took, waits, -⟩ := waits
    exact absurd waits (hs.not_waits he took)

lemma Link.of_resp (h : Link S stamp p tail done todo) (hr : p.reader.resp = none)
    (stamp' : ℕ) : Link S stamp' p tail done todo := by
  obtain ⟨key, n, rest, hy, he, hw⟩ := h.expects
  refine ⟨⟨h.ranges, h.sizes, h.taken, h.length, h.read, ⟨key, n, rest, hy, ?_, hw⟩,
    h.stop⟩, h.valid, h.staged, h.owed, h.all⟩
  simp only [Expects, hr] at he ⊢
  exact he

/-- The handshake is over, and nothing was written yet. -/
structure AfterAuth (S : SsSuite) (stamp : ℕ) (p : Pipe) : Prop where
  idle : p.writer.rest = []
  staged : stagedOf p.out = 0
  valid : ∀ o ∈ p.out, o.Valid
  opened : p.wire.closed = false
  uncut : p.wire.cut = false
  taken : p.wire.taken ≤ p.wire.sent.length
  start : p.start = p.wire.sent.length + (restOf p.out).length
  ranges : p.ranges = []
  delivered : p.delivered = []
  readBuf : p.reader.readBuf = []
  expects : ∃ rest, Yields p.inn (p.wire.transit ++ restOf p.out) rest ∧
    Expects S stamp p.reader p.writer.writeSubkey p.writer.writeCounter rest []

lemma AfterAuth.linked (h : AfterAuth S stamp p) : Linked S stamp p := by
  obtain ⟨rest, hy, he⟩ := h.expects
  refine ⟨restOf p.out, [], [], ⟨h.ranges, ?_, h.taken, ?_, ?_, ⟨_, _, rest, hy, he,
    fun _ => ⟨rfl, rfl⟩⟩, fun hc => ?_⟩, h.valid, ?_, fun _ _ => ?_, fun _ hw => ?_⟩
  · rw [h.ranges]
    exact nofun
  · rw [h.ranges, h.start]
    rfl
  · rw [h.delivered, h.readBuf]
    rfl
  · rw [h.uncut] at hc
    cases hc
  · rw [h.staged]
    exact zero_le _
  · rw [backlog, h.idle, drop_nil, append_nil]
  · rw [h.opened] at hw
    cases hw

/-- The reads are a front of the writes, and ends are where they should be. -/
structure Transparent (S : SsSuite) (stamp : ℕ) (p : Pipe) : Prop where
  delivered : p.delivered <+: p.accepted
  /-- A clean end comes at the end of a chunk, after what had been accepted until then, and after
  all of it if the wire has been closed in order. -/
  cleanEnd : ∀ room nowSecs script, 0 < room → p.read S room nowSecs script = .ready [] →
    p.wire.ended = true ∧ ∃ k ≤ p.ranges.length,
      p.wire.sent.length = p.start + encodedLen (p.ranges.take k) ∧
      p.delivered = (p.ranges.take k).flatten ∧ (p.wire.cut = false → p.delivered = p.accepted)
  /-- The end shows: a read returns bytes, the end or an error. -/
  ends : ∀ room nowSecs script, p.wire.ended = true → Prompt p.wire script →
    p.read S room nowSecs script ≠ .pending
  /-- After a shutdown that is ready, a read returns bytes or the end. -/
  shut : ∀ script, (p.writer.pollShutdown (p.out, p.wire, script)).1 = .ready () →
    (p.step S (.shutdown script)).wire.closed = true
  closed : ∀ room nowSecs script, p.wire.closed = true → p.wire.cut = false →
    Prompt p.wire script →
    (p.reader.resp = none ∨ absDiff nowSecs stamp ≤ timestampToleranceSecs) →
    ∃ l, p.read S room nowSecs script = .ready l

lemma closed_of_shutdown {script : List WriteAnswer} {w : Wire UInt8}
    (h : (Wire.pollShutdown IoError.inner w script).1 = .ready ()) :
    (Wire.pollShutdown IoError.inner w script).2.1.closed = true := by
  cases script with
  | nil => cases h
  | cons a script =>
    cases a with
    | pending | failed => cases h
    | accepted n => rfl

lemma step_shutdown_closed {script : List WriteAnswer}
    (h : (p.writer.pollShutdown (p.out, p.wire, script)).1 = .ready ()) :
    (p.step S (.shutdown script)).wire.closed = true := by
  simp only [step, SsWriter.pollShutdown, CarrierOut.pollShutdown] at h ⊢
  cases ho : p.out with
  | none =>
    simp only [ho] at h ⊢
    exact closed_of_shutdown h
  | some o =>
    simp only [ho, WuOut.pollShutdown] at h ⊢
    generalize o.drainStage (p.wire, script) = r at h ⊢
    obtain ⟨r, o', s⟩ := r
    cases r with
    | pending | failed e => cases h
    | ready u => exact closed_of_shutdown h

lemma Linked.transparent (ideal : S.Ideal) (h : Linked S stamp p) : Transparent S stamp p := by
  obtain ⟨tail, done, todo, h⟩ := h
  have ht : p.ranges.take done.length = done := by rw [h.ranges, take_left]
  refine ⟨?_, ?_, ?_, fun _ => step_shutdown_closed, ?_⟩
  · refine ⟨p.reader.readBuf ++ todo.flatten, ?_⟩
    rw [← append_assoc, ← h.read, accepted, h.ranges, flatten_append]
  · intro room nowSecs script hrm hr
    obtain ⟨hen, hsn, hrd, ha⟩ := h.clean_end ideal hrm hr
    refine ⟨hen, done.length, ?_, ?_, ?_, fun hc => ?_⟩
    · rw [h.ranges, length_append]
      exact le_add_right _ _
    · rw [ht, hsn]
    · rw [ht, hrd]
    · rw [hrd, accepted, h.ranges, ha hc, append_nil]
  · exact fun room nowSecs script he hs => h.read_ne_pending ideal he hs
  · rintro room nowSecs script hw hc hs (hrs | hf)
    · refine (h.of_resp hrs nowSecs).read_ready ideal hw hc hs ?_
      simp [absDiff]
    · exact h.read_ready ideal hw hc hs hf

def clearSuite : SsSuite where
  deriveSessionKey psk _ := psk
  encrypt _ _ plain := plain ++ List.replicate tagLen 0
  decrypt _ _ sealed := some (sealed.take (sealed.length - tagLen))
  deriveMagic _ := (vec 4 [], 0)

lemma clearSuite_ideal : clearSuite.Ideal where
  opens key nonce plain := by simp [clearSuite]
  length key nonce plain := by simp [clearSuite]

def upstream : Pipe where
  writer := ⟨vec 32 [], 4, [], 0⟩
  out := none
  wire := ⟨[], 0, false, false⟩
  inn := none
  reader := ⟨vec 32 [], 4, [], [], .length, none⟩
  start := 0
  ranges := []
  delivered := []

def responseHeader : Bytes := 1 :: beBytes 8 1000 ++ List.replicate 18 0

def downstream : Pipe where
  writer := ⟨vec 32 [], 2, [], 0⟩
  out := some ⟨[], 0, 0, true⟩
  wire := ⟨List.replicate 22 65 ++ ((vec 16 []).toList ++
    encryptChunk clearSuite (vec 32 []) 0 responseHeader), 0, false, false⟩
  inn := some ⟨.needLen, []⟩
  reader := ⟨vec 32 [], 0, [], [], .length, some ⟨vec 32 [], vec 16 [], .salt, []⟩⟩
  start := 99
  ranges := []
  delivered := []

lemma afterAuth_upstream : AfterAuth clearSuite 0 upstream :=
  ⟨rfl, rfl, nofun, rfl, rfl, le_refl 0, rfl, rfl, rfl, rfl, [], rfl, rfl, rfl, zero_le _, rfl⟩

lemma afterAuth_downstream : AfterAuth clearSuite 1000 downstream := by
  refine ⟨rfl, rfl, ?_, rfl, rfl, zero_le _, by decide +kernel, rfl, rfl, rfl, ?_⟩
  · rintro _ ⟨⟩
    exact ⟨le_refl 0, fun _ => rfl⟩
  refine ⟨(vec 16 []).toList ++ (encryptChunk clearSuite (vec 32 []) 0 responseHeader ++ []),
    ⟨rfl, 65, replicate 21 65, by decide +kernel, by decide +kernel, by decide +kernel⟩,
    rfl, rfl, rfl, rfl, responseHeader, ?_, vec 16 [], rfl, zero_le _, rfl⟩
  exact ⟨by decide +kernel, by decide +kernel, by decide +kernel, by decide +kernel,
    by decide +kernel⟩

/-- A byte stream, if it is flushed before a shutdown and the wire does not end within a chunk. -/
theorem stream_transparent (ideal : S.Ideal) (h₀ : AfterAuth S stamp p) {events : List PipeEvent}
    (h : Runs.Along (Pipe.step S) Orderly p events) :
    Transparent S stamp (Runs.run (Pipe.step S) p events) :=
  (Runs.inv_run (linked_step ideal) p events h₀.linked h).transparent ideal

def threeBytes : List PipeEvent :=
  [.write [1, 2, 3] [.accepted 10, .pending], .read 2 1010 (List.replicate 200 (.upTo 9)),
    .flush [.accepted 100, .accepted 1], .shutdown [.accepted 1],
    .read 2 1010 (List.replicate 200 (.upTo 9)), .read 2 1010 (List.replicate 200 (.upTo 9))]

theorem stream_transparent_three_bytes :
    Transparent clearSuite 1000 (Runs.run (Pipe.step clearSuite) downstream threeBytes) ∧
      (Runs.run (Pipe.step clearSuite) downstream threeBytes).delivered = [1, 2, 3] := by
  refine ⟨stream_transparent clearSuite_ideal afterAuth_downstream ?_, by decide +kernel⟩
  have hs : ∀ {script : List WriteAnswer},
      (script.all fun a => a ≠ .failed ∧ a ≠ .accepted 0) = true → Sane script := by
    intro script h a ha
    simpa using List.all_eq_true.1 h a ha
  exact ⟨hs (by decide), trivial, hs (by decide), ⟨hs (by decide), by decide +kernel⟩,
    trivial, trivial, trivial⟩

/-- A byte not on the wire at the shutdown, or in a chunk cut short, is lost behind a clean end. -/
theorem stream_clean_end_early : AfterAuth clearSuite 0 upstream ∧
    (upstream.writer.pollWrite clearSuite [7] (none, upstream.wire, [])).1 = .ready 1 ∧
    (let p := upstream.step clearSuite (.write [7] [])
     let p' := p.step clearSuite (.shutdown [.accepted 1])
     p.accepted = [7] ∧
      (p.writer.pollShutdown (p.out, p.wire, [.accepted 1])).1 = .ready () ∧
      p'.read clearSuite 8 0 [.upTo 99] = .ready [] ∧ p'.delivered = []) ∧
    (let p := Runs.run (Pipe.step clearSuite) upstream [.write [7] [.accepted 99], .cut 20]
     p.wire.sent.length = 20 ∧ encodedLen p.ranges = 35 ∧
      p.read clearSuite 8 0 [.upTo 99, .upTo 99, .upTo 99] = .ready [] ∧ p.delivered = []) :=
  ⟨afterAuth_upstream, by decide +kernel, by decide +kernel, by decide +kernel⟩

end Pipe

end Mirage.Transport
