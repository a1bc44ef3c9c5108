import Mirage.Lib.Runs
import Mirage.Transport.Paced

/-!
# The paced channel is a byte stream

What the reading side has of a cell, what is in transit and what is left to write make up cells
(`Expects`).
-/

namespace Mirage.Transport

open Words Wires Wires.Wire Pump List Nat Runs

structure Cell where
  real : Bytes
  pad : ℕ
  real_lt : real.length < 65536
  pad_lt : pad < 65536

def padding (pad : ℕ) : Bytes := beBytes 2 pad ++ replicate pad 0

def Cell.bytes (x : Cell) : Bytes := beBytes 2 x.real.length ++ (x.real ++ padding x.pad)

def encodeCells (cells : List Cell) : Bytes := cells.flatMap Cell.bytes

def reals (cells : List Cell) : Bytes := cells.flatMap Cell.real

variable {cells cells' : List Cell} {real flow rest rest' todo l x y : Bytes} {n : ℕ}

@[simp]
lemma encodeCells_append :
    encodeCells (cells ++ cells') = encodeCells cells ++ encodeCells cells' :=
  flatMap_append

@[simp]
lemma reals_append : reals (cells ++ cells') = reals cells ++ reals cells' := flatMap_append

lemma encodeCells_cons (x : Cell) : encodeCells (x :: cells) =
    beBytes 2 x.real.length ++ (x.real ++ (padding x.pad ++ encodeCells cells)) := by
  rw [encodeCells, flatMap_cons, Cell.bytes, append_assoc, append_assoc]
  rfl

def emptyCell : Cell := ⟨[], 0, by decide, by decide⟩

lemma encodeCells_replicate (k : ℕ) :
    encodeCells (replicate k emptyCell) = replicate (k * 4) 0 := by
  have hc : emptyCell.bytes = replicate 4 0 := by decide
  rw [encodeCells, flatMap_replicate, hc, flatten_replicate_replicate]

lemma reals_replicate (k : ℕ) : reals (replicate k emptyCell) = [] := by
  rw [reals, flatMap_replicate]
  exact flatten_replicate_nil

lemma buildFrame_cells (len : ℕ) (hr : real.length < 65536) :
    ∃ cells, buildFrame real len = encodeCells cells ∧ reals cells = real := by
  obtain ⟨pad, hp⟩ : ∃ pad, pad = len - frameHeader - real.length := ⟨_, rfl⟩
  refine ⟨⟨real, pad % 65536, hr, mod_lt _ (by decide)⟩ ::
    replicate (pad / 65536 * 16384) emptyCell, ?_, ?_⟩
  · have hs : replicate pad (0 : UInt8) =
        replicate (pad % 65536) 0 ++ replicate (pad / 65536 * 16384 * 4) 0 := by
      rw [replicate_append_replicate]
      congr 1
      omega
    rw [encodeCells_cons, encodeCells_replicate, buildFrame, ← hp, mod_eq_of_lt hr, padding, hs]
    simp
  · rw [reals, flatMap_cons]
    have := reals_replicate (pad / 65536 * 16384)
    rw [reals] at this
    rw [this, append_nil]

lemma buildFrame_ne_nil {len : ℕ} : buildFrame real len ≠ [] := by
  rw [buildFrame]
  refine ne_nil_of_length_pos ?_
  simp only [length_append, length_beBytes]
  omega

namespace FrameReader

structure Length (hdr flow : Bytes) (v : ℕ) (rest : Bytes) : Prop where
  short : hdr.length < 2
  lt : v < 65536
  eq : hdr ++ flow = beBytes 2 v ++ rest

/-- What is at hand and what is to come make up cells. -/
def Expects (r : FrameReader) (flow todo : Bytes) : Prop :=
  match r.rstate with
  | .realLen => r.hdr.length < 2 ∧ ∃ cells, r.hdr ++ flow = encodeCells cells ∧ todo = reals cells
  | .payload rem => r.hdr = [] ∧ ∃ data pad cells, data.length = rem ∧ pad < 65536 ∧
      flow = data ++ (padding pad ++ encodeCells cells) ∧ todo = data ++ reals cells
  | .padLen => ∃ pad cells,
      Length r.hdr flow pad (replicate pad 0 ++ encodeCells cells) ∧ todo = reals cells
  | .pad rem => r.hdr = [] ∧ ∃ cells, flow = replicate rem 0 ++ encodeCells cells ∧
      todo = reals cells

variable {r : FrameReader} {room : ℕ}

lemma Expects.append (h : Expects r flow todo) (cells' : List Cell) :
    Expects r (flow ++ encodeCells cells') (todo ++ reals cells') := by
  obtain ⟨st, hdr, scratch, eof⟩ := r
  cases st with
  | realLen =>
    obtain ⟨hlt, cells, heq, rfl⟩ := h
    refine ⟨hlt, cells ++ cells', ?_, reals_append.symm⟩
    rw [encodeCells_append, ← heq, append_assoc]
  | payload rem =>
    obtain ⟨hh, data, pad, cells, hl, hp, rfl, rfl⟩ := h
    refine ⟨hh, data, pad, cells ++ cells', hl, hp, ?_, ?_⟩
    · simp [encodeCells_append]
    · simp [reals_append]
  | padLen =>
    obtain ⟨pad, cells, ⟨hs, hlt, heq⟩, rfl⟩ := h
    refine ⟨pad, cells ++ cells', ⟨hs, hlt, ?_⟩, reals_append.symm⟩
    rw [← append_assoc, heq]
    simp [encodeCells_append]
  | pad rem =>
    obtain ⟨hh, cells, rfl, rfl⟩ := h
    refine ⟨hh, cells ++ cells', ?_, reals_append.symm⟩
    simp [encodeCells_append]

lemma readLen_spec {v : ℕ} (next : ℕ → ReadState)
    (h : Length r.hdr (r.scratch ++ flow) v rest) :
    (∃ hdr, r.readLen next = { r with hdr := hdr, scratch := [] } ∧ Length hdr flow v rest) ∨
    ∃ scratch, r.readLen next = { r with hdr := [], scratch := scratch, rstate := next v } ∧
      scratch.length < r.scratch.length ∧ scratch ++ flow = rest := by
  obtain ⟨hsh, hlt, heq⟩ := h
  rw [readLen]
  by_cases hle : 2 - r.hdr.length ≤ r.scratch.length
  · have hm : min (2 - r.hdr.length) r.scratch.length = 2 - r.hdr.length := min_eq_left hle
    have hl : (r.hdr ++ r.scratch.take (2 - r.hdr.length)).length = 2 := by
      rw [length_append, length_take_of_le hle]
      omega
    have he' : (r.hdr ++ r.scratch.take (2 - r.hdr.length)) ++
        (r.scratch.drop (2 - r.hdr.length) ++ flow) = beBytes 2 v ++ rest := by
      rw [← heq, append_assoc, ← append_assoc (take _ _), take_append_drop]
    obtain ⟨hh, hr⟩ := append_inj he' (hl.trans (length_beBytes 2 v).symm)
    refine .inr ⟨r.scratch.drop (2 - r.hdr.length), ?_, ?_, hr⟩
    · simp only [hm, hl, if_true]
      rw [hh, beNat_beBytes hlt]
    · rw [length_drop]
      omega
  · have hm : min (2 - r.hdr.length) r.scratch.length = r.scratch.length := by omega
    have hl : (r.hdr ++ r.scratch).length < 2 := by
      rw [length_append]
      omega
    refine .inl ⟨r.hdr ++ r.scratch, ?_, hl, hlt, by rw [append_assoc, heq]⟩
    simp only [hm, take_length, drop_length, if_neg (Nat.ne_of_lt hl)]

def steps (r : FrameReader) : ℕ :=
  2 * r.scratch.length +
    match r.rstate with
    | .payload 0 => 1
    | .pad 0 => 1
    | _ => 0

lemma steps_le (r : FrameReader) : r.steps ≤ 2 * r.scratch.length + 1 := by
  rw [steps]
  split <;> omega

variable {r' : FrameReader} {rem fuel : ℕ} {res : Bytes × Bool × FrameReader}

lemma steps_lt (hlt : r'.scratch.length < r.scratch.length) : r'.steps < r.steps := by
  have hle := r'.steps_le
  have hge : 2 * r.scratch.length ≤ r.steps := le_add_right _ _
  omega

/-- A step of the parser makes progress. -/
structure Parses (r r' : FrameReader) (flow todo : Bytes) : Prop where
  expects : Expects r' (r'.scratch ++ flow) todo
  steps : r'.steps < r.steps

lemma parses_realLen (hst : r.rstate = .realLen) (hs : r.scratch ≠ [])
    (h : Expects r (r.scratch ++ flow) todo) : Parses r (r.readLen .payload) flow todo := by
  have hp := length_pos_of_ne_nil hs
  simp only [Expects, hst] at h
  obtain ⟨hsh, cells, heq, rfl⟩ := h
  cases cells with
  | nil => exact absurd (append_eq_nil_iff.1 (append_eq_nil_iff.1 heq).2).1 hs
  | cons x cells =>
    have hl : Length r.hdr (r.scratch ++ flow) x.real.length _ :=
      ⟨hsh, x.real_lt, heq.trans (encodeCells_cons x)⟩
    rcases readLen_spec .payload hl with ⟨hdr, hr, hl⟩ | ⟨scratch, hr, hlt, hrs⟩
    · rw [hr]
      refine ⟨?_, steps_lt hp⟩
      simp only [Expects, hst]
      exact ⟨hl.short, x :: cells, hl.eq.trans (encodeCells_cons x).symm, rfl⟩
    · rw [hr]
      exact ⟨⟨rfl, x.real, x.pad, cells, rfl, x.pad_lt, hrs, rfl⟩, steps_lt hlt⟩

lemma parses_padLen (hst : r.rstate = .padLen) (hs : r.scratch ≠ [])
    (h : Expects r (r.scratch ++ flow) todo) : Parses r (r.readLen .pad) flow todo := by
  have hp := length_pos_of_ne_nil hs
  simp only [Expects, hst] at h
  obtain ⟨pad, cells, hl, rfl⟩ := h
  rcases readLen_spec .pad hl with ⟨hdr, hr, hl⟩ | ⟨scratch, hr, hlt, hrs⟩
  · rw [hr]
    refine ⟨?_, steps_lt hp⟩
    simp only [Expects, hst]
    exact ⟨pad, cells, hl, rfl⟩
  · rw [hr]
    exact ⟨⟨rfl, cells, hrs, rfl⟩, steps_lt hlt⟩

lemma expects_padLen {pad : ℕ} (hst : r.rstate = .padLen) (hh : r.hdr = []) (hp : pad < 65536)
    (hf : flow = padding pad ++ encodeCells cells) : Expects r flow (reals cells) := by
  simp only [Expects, hst, hh]
  refine ⟨pad, cells, ⟨by decide, hp, ?_⟩, rfl⟩
  rw [nil_append, hf, padding, append_assoc]

lemma expects_realLen (hst : r.rstate = .realLen) (hh : r.hdr = [])
    (hf : flow = encodeCells cells) : Expects r flow (reals cells) := by
  simp only [Expects, hst, hh]
  exact ⟨by decide, cells, hf, rfl⟩

lemma take_drop_eq (h : x ++ flow = y ++ rest) (hx : n ≤ x.length) (hy : n ≤ y.length) :
    x.take n = y.take n ∧ x.drop n ++ flow = y.drop n ++ rest := by
  constructor
  · have := congrArg (take n) h
    rwa [take_append_of_le_length hx, take_append_of_le_length hy] at this
  · have := congrArg (drop n) h
    rwa [drop_append_of_le_length hx, drop_append_of_le_length hy] at this

lemma parses_payload (hst : r.rstate = .payload rem) (hps : 0 < n) (hr : n ≤ rem)
    (hn : n ≤ r.scratch.length) (h : Expects r (r.scratch ++ flow) todo) :
    ∃ todo', todo = r.scratch.take n ++ todo' ∧ Parses r
      { r with
        scratch := r.scratch.drop n
        rstate := if rem - n = 0 then .padLen else .payload (rem - n) } flow todo' := by
  have hlt : (r.scratch.drop n).length < r.scratch.length := by
    rw [length_drop]
    omega
  simp only [Expects, hst] at h
  obtain ⟨hh, data, pad, cells, hl, hp, heq, rfl⟩ := h
  obtain ⟨ht, hd⟩ := take_drop_eq heq hn (hl ▸ hr)
  refine ⟨data.drop n ++ reals cells, ?_, ?_, steps_lt hlt⟩
  · rw [ht, ← append_assoc, take_append_drop]
  split_ifs with hz
  · have hnl : data.drop n = [] := drop_of_length_le (by omega)
    rw [hnl, nil_append] at hd ⊢
    exact expects_padLen rfl hh hp hd
  · refine ⟨hh, data.drop n, pad, cells, ?_, hp, hd, rfl⟩
    rw [length_drop, hl]

lemma parses_pad (hst : r.rstate = .pad rem) (hp : 0 < n) (hrm : n ≤ rem)
    (hn : n ≤ r.scratch.length) (h : Expects r (r.scratch ++ flow) todo) : Parses r
      { r with
        scratch := r.scratch.drop n
        rstate := if rem - n = 0 then .realLen else .pad (rem - n) } flow todo := by
  have hlt : (r.scratch.drop n).length < r.scratch.length := by
    rw [length_drop]
    omega
  simp only [Expects, hst] at h
  obtain ⟨hh, cells, heq, rfl⟩ := h
  have hr : n ≤ (replicate rem (0 : UInt8)).length := by rwa [length_replicate]
  have hd := (take_drop_eq heq hn hr).2
  rw [drop_replicate] at hd
  refine ⟨?_, steps_lt hlt⟩
  split_ifs with hz
  · rw [hz] at hd
    exact expects_realLen rfl hh hd
  · exact ⟨hh, cells, hd, rfl⟩

structure Parsed (fuel : ℕ) (r : FrameReader) (flow todo : Bytes)
    (res : Bytes × Bool × FrameReader) : Prop where
  expects : ∃ todo', todo = res.1 ++ todo' ∧ Expects res.2.2 (res.2.2.scratch ++ flow) todo'
  done : r.steps ≤ fuel → res.2.1 = true ∨ res.2.2.scratch = []

lemma Parsed.step (h : Parsed fuel r' flow todo res) (hs : r'.steps < r.steps) :
    Parsed (fuel + 1) r flow todo res :=
  ⟨h.expects, fun hle => h.done (by omega)⟩

lemma Parsed.prepend
    (h : Parsed fuel r flow todo res) : Parsed fuel r flow (l ++ todo) (l ++ res.1, res.2) := by
  obtain ⟨todo', rfl, hex⟩ := h.expects
  exact ⟨⟨todo', (append_assoc _ _ _).symm, hex⟩, h.done⟩

lemma parse_parsed : ∀ (fuel : ℕ) (r : FrameReader) (room : ℕ) {todo : Bytes},
    Expects r (r.scratch ++ flow) todo → Parsed fuel r flow todo (parse fuel r room)
  | 0, r, _, _, h => by
    refine ⟨⟨_, rfl, h⟩, fun hle => .inr (eq_nil_of_length_eq_zero ?_)⟩
    have : 2 * r.scratch.length ≤ r.steps := le_add_right _ _
    change r.scratch.length = 0
    omega
  | fuel + 1, r, room, todo, h => by
    by_cases hs : r.scratch = []
    · rw [parse, if_pos hs]
      exact ⟨⟨_, rfl, h⟩, fun _ => .inr hs⟩
    have hps := length_pos_of_ne_nil hs
    rw [parse, if_neg hs]
    cases hst : r.rstate with
    | realLen =>
      have hp := parses_realLen hst hs h
      exact (parse_parsed fuel _ room hp.expects).step hp.steps
    | padLen =>
      have hp := parses_padLen hst hs h
      exact (parse_parsed fuel _ room hp.expects).step hp.steps
    | payload rem =>
      by_cases hr : rem = 0
      · subst hr
        have hex : Expects { r with rstate := .padLen } (r.scratch ++ flow) todo := by
          simp only [Expects, hst] at h
          obtain ⟨hh, data, pad, cells, hl, hpd, heq, rfl⟩ := h
          obtain rfl := eq_nil_of_length_eq_zero hl
          exact expects_padLen rfl hh hpd heq
        refine (parse_parsed fuel _ room hex).step ?_
        simp only [steps, hst]
        omega
      simp only [if_neg hr]
      by_cases hrm : room = 0
      · rw [if_pos hrm]
        exact ⟨⟨_, rfl, h⟩, fun _ => .inl rfl⟩
      rw [if_neg hrm]
      obtain ⟨todo', rfl, hp⟩ := parses_payload (n := min rem (min r.scratch.length room)) hst
        (by omega) (by omega) (by omega) h
      exact ((parse_parsed fuel _ _ hp.expects).step hp.steps).prepend
    | pad rem =>
      by_cases hr : rem = 0
      · subst hr
        have hex : Expects { r with rstate := .realLen } (r.scratch ++ flow) todo := by
          simp only [Expects, hst] at h
          obtain ⟨hh, cells, heq, rfl⟩ := h
          exact expects_realLen rfl hh heq
        refine (parse_parsed fuel _ room hex).step ?_
        simp only [steps, hst]
        omega
      · simp only [if_neg hr]
        have hp := parses_pad (n := min rem r.scratch.length) hst (by omega) (by omega) (by omega) h
        exact (parse_parsed fuel _ _ hp.expects).step hp.steps

lemma parseAll_parsed (h : Expects r (r.scratch ++ flow) todo) :
    (∃ todo', todo = (r.parseAll room).1 ++ todo' ∧
      Expects (r.parseAll room).2.2 ((r.parseAll room).2.2.scratch ++ flow) todo') ∧
    ((r.parseAll room).2.1 = true ∨ (r.parseAll room).2.2.scratch = []) := by
  have hp := parse_parsed (2 * r.scratch.length + 1) r room h
  exact ⟨hp.expects, hp.done r.steps_le⟩

def output : IoPoll Bytes → Bytes
  | .ready l => l
  | _ => []

/-- What is read is the next part of `todo`. -/
structure Reads (w : Wire UInt8) (tail todo : Bytes) (res : IoPoll Bytes × FrameReader × ReadEnd) :
    Prop where
  took : ∃ l, Took w res.2.2.1 l
  expects : ∃ todo', todo = output res.1 ++ todo' ∧
    Expects res.2.1 (res.2.1.scratch ++ (res.2.2.1.transit ++ tail)) todo'

lemma pollRead_reads (room : ℕ) {tail : Bytes} :
    ∀ (fuel : ℕ) (r : FrameReader) (s : ReadEnd) {todo : Bytes},
    Expects r (r.scratch ++ (s.1.transit ++ tail)) todo →
    Reads s.1 tail todo (pollRead room fuel r s)
  | 0, _, s, todo, h => ⟨⟨[], .refl s.1⟩, todo, rfl, h⟩
  | fuel + 1, r, (w, s), todo, h => by
    obtain ⟨⟨todo', ht, hex⟩, hd⟩ := parseAll_parsed h
    rw [pollRead]
    generalize r.parseAll room = res at ht hex hd
    obtain ⟨l, full, r'⟩ := res
    simp only at ht hex hd ⊢
    split_ifs with hc
    · exact ⟨⟨[], .refl w⟩, todo', ht, hex⟩
    rw [not_or, not_or, not_not] at hc
    obtain ⟨hf, rfl, -⟩ := hc
    obtain rfl : todo = todo' := ht
    have hs := hd.resolve_left hf
    have hp := pollRead_polled IoError.inner w (show 0 < readChunk by decide) s
    generalize Wire.pollRead IoError.inner readChunk w s = polled at hp
    cases hp with
    | pending | failed | ended => exact ⟨⟨[], .refl w⟩, todo, rfl, hex⟩
    | @some x l w' t read =>
      have he' : Expects { r' with scratch := x :: l } ((x :: l) ++ (w'.transit ++ tail))
          todo := by
        rw [hs, nil_append, read.transit, append_assoc] at hex
        exact hex
      have ih := pollRead_reads room fuel _ (w', t) he'
      obtain ⟨l', hl'⟩ := ih.took
      exact ⟨⟨_, read.toTook.trans hl'⟩, ih.expects⟩

end FrameReader

/-- The rest of the frame that is written; one that has ended may have lost data. -/
def Pump.Owes (tail lost : Bytes) (closed : Bool) : Pump → Prop
  | .writing rest => tail = rest ∧ rest ≠ [] ∧ lost = [] ∧ closed = false
  | .exited => True
  | _ => tail = [] ∧ lost = [] ∧ closed = false

/-- A pump that waits will make its frame, and one that has ended has nothing left. -/
def Pump.Settled (c : Carrier) (shared : WriteShared) (tail lost : Bytes) : Pump → Prop
  | .waiting tok => frameLen c tok ≤ isizeMax
  | .closing | .exited => shared.closed = true ∧ shared.buf = [] ∧ tail = [] ∧ lost = []
  | _ => True

def Pump.Takes (answer : WriteAnswer) : Pump → Prop
  | .writing _ => answer ≠ .failed ∧ answer ≠ .accepted 0
  | .flushing => answer ≠ .failed
  | _ => True

instance (answer : WriteAnswer) (pump : Pump) : Decidable (pump.Takes answer) := by
  unfold Takes
  split <;> infer_instance

variable {c : Carrier} {shared shared' : WriteShared} {pump : Pump} {tail lost : Bytes}

lemma Pump.Settled.queue (h : pump.Settled c shared tail lost)
    (hq : shared.closed = true → shared'.closed = true ∧ shared'.buf = shared.buf) :
    pump.Settled c shared' tail lost := by
  cases pump with
  | closing | exited =>
    obtain ⟨hc, hb, hr⟩ := h
    exact ⟨(hq hc).1, (hq hc).2.trans hb, hr⟩
  | _ => exact h

section

variable {wire : Wire UInt8}

lemma Pump.poll_accepted_zero (hc : wire.closed = false) :
    poll shared wire (.accepted 0) (.writing rest) = ((fail shared).1, (fail shared).2, wire) := by
  simp [poll, pollWrite, hc]

lemma Pump.poll_accepted_succ (hc : wire.closed = false) (hne : rest ≠ []) :
    ∃ k, poll shared wire (.accepted (n + 1)) (.writing rest) =
      (shared, if rest.drop k = [] then .flushing else .writing (rest.drop k),
        wire.put (rest.take k)) := by
  have hp := length_pos_of_ne_nil hne
  obtain ⟨k, hk⟩ : ∃ k, min (n + 1) rest.length = k + 1 :=
    exists_eq_succ_of_ne_zero (by omega)
  refine ⟨k + 1, ?_⟩
  have ht : rest.take (n + 1) = rest.take (k + 1) := by rw [take_eq_take_min, hk]
  simp [poll, pollWrite, hc, hk, ht]

end

namespace Paced

variable {p : Paced}

/-- The cells hold what was accepted, but for what is lost or queued; the peer will read `todo`. -/
structure Link (p : Paced) (tail lost : Bytes) (cells : List Cell) (todo : Bytes) : Prop where
  sent : p.wire.sent ++ tail = encodeCells cells
  accepted : p.accepted = reals cells ++ (lost ++ p.shared.buf)
  uncut : p.wire.cut = false
  taken : p.wire.taken ≤ p.wire.sent.length
  expects : p.reader.Expects (p.reader.scratch ++ (p.wire.transit ++ tail)) todo
  delivered : reals cells = p.delivered ++ todo
  owes : p.pump.Owes tail lost p.wire.closed

/-- The carrier takes and flushes all, and a token's time and size can be represented. -/
def Steady (c : Carrier) (p : Paced) : PacedEvent → Prop
  | .carrier answer => p.pump.Takes answer
  | .token tok _ => tok.t ≠ none ∧ frameLen c tok ≤ isizeMax
  | _ => True

instance (c : Carrier) (p : Paced) : DecidablePred (Steady c p) := fun _ => by
  unfold Steady
  split <;> infer_instance

/-- A step keeps the link, and a pump that is settled stays so if `ok`. -/
def Leads (c : Carrier) (p p' : Paced) (tail lost : Bytes) (ok : Prop) : Prop :=
  ∃ tail' lost' cells' todo', Link p' tail' lost' cells' todo' ∧
    (ok → p.pump.Settled c p.shared tail lost → p'.pump.Settled c p'.shared tail' lost')

variable {ok : Prop}

section

variable (h : Link p tail lost cells todo)

include h

lemma Leads.refl : Leads c p p tail lost ok :=
  ⟨tail, lost, cells, todo, h, fun _ hs => hs⟩

lemma leads_queue (data : Bytes) (hcl : p.shared.closed = true → data = []) : Leads c p
      { p with
        shared := { p.shared with buf := p.shared.buf ++ data }
        accepted := p.accepted ++ data } tail lost ok := by
  refine ⟨tail, lost, cells, todo, { h with accepted := ?_ }, fun _ hs => hs.queue fun hc => ?_⟩
  · simp [h.accepted]
  · exact ⟨hc, by rw [hcl hc, append_nil]⟩

lemma leads_write (data : Bytes) : Leads c p (p.step c (.write data)) tail lost ok := by
  simp only [step, WriteShared.pollWrite]
  split_ifs with hn hb hcl hf
  · have hn : Leads c p _ tail lost ok := leads_queue h [] fun _ => rfl
    simpa using hn
  · exact .refl h
  · exact .refl h
  · exact .refl h
  · exact leads_queue h _ fun hc => absurd hc hcl

lemma leads_shutdown : Leads c p (p.step c .shutdown) tail lost ok :=
  ⟨tail, lost, cells, todo, { h with }, fun _ hs => hs.queue fun _ => ⟨rfl, rfl⟩⟩

lemma leads_token (tok : EmitToken) (dropped : Bool) :
    Leads c p (p.step c (.token tok dropped)) tail lost (Steady c p (.token tok dropped)) := by
  simp only [step]
  cases hp : p.pump with
  | top =>
    have ho := h.owes
    rw [hp] at ho
    rw [Pump.next]
    by_cases hq : p.shared.closed = true ∧ p.shared.buf = []
    · rw [if_pos hq]
      exact ⟨tail, lost, cells, todo, { h with owes := ho }, fun _ _ => ⟨hq.1, hq.2, ho.1, ho.2.1⟩⟩
    rw [if_neg hq]
    cases ht : tok.t with
    | none =>
      exact ⟨tail, lost, cells, todo, { h with owes := trivial }, fun hok _ => absurd ht hok.1⟩
    | some t =>
      cases dropped with
      | true => exact ⟨tail, lost, cells, todo, { h with owes := ho }, fun _ _ => trivial⟩
      | false => exact ⟨tail, lost, cells, todo, { h with owes := ho }, fun hok _ => hok.2⟩
  | _ => exact .refl h

lemma leads_fire : Leads c p (p.step c .fire) tail lost ok := by
  simp only [step]
  cases hp : p.pump with
  | waiting tok =>
    have ho := h.owes
    rw [hp] at ho
    obtain ⟨rfl, rfl, hc⟩ := ho
    simp only [fire]
    generalize hcp : min (frameLen c tok - frameHeader) 65535 = cap
    have ha : p.accepted =
        reals cells ++ (p.shared.buf.take cap ++ p.shared.buf.drop cap) := by
      rw [take_append_drop, h.accepted, nil_append]
    split_ifs with hl
    · refine ⟨[], p.shared.buf.take cap, cells, todo,
        { h with accepted := ha, owes := trivial }, fun _ hs => ?_⟩
      rw [hp] at hs
      exact absurd hl (not_lt.2 hs)
    have hrl : (p.shared.buf.take cap).length < 65536 := by
      rw [length_take]
      omega
    obtain ⟨frame, hf, hr⟩ := buildFrame_cells (frameLen c tok) hrl
    have hsn := h.sent
    rw [append_nil] at hsn
    refine ⟨_, [], cells ++ frame, todo ++ reals frame,
      { h with
        sent := ?_
        accepted := ?_
        expects := ?_
        delivered := ?_
        owes := ⟨rfl, buildFrame_ne_nil, rfl, hc⟩ }, fun _ _ => trivial⟩
    · rw [encodeCells_append, hsn, hf]
    · rw [ha, reals_append, hr, nil_append, append_assoc]
    · have hex := h.expects.append frame
      rw [append_nil, append_assoc] at hex
      rw [hf]
      exact hex
    · rw [reals_append, h.delivered, append_assoc]
  | _ => exact .refl h

end

lemma Link.put (h : Link p (l ++ tail) lost cells todo)
    (ho : pump.Owes tail lost p.wire.closed) :
    Link { p with pump := pump, wire := p.wire.put l } tail lost cells todo where
  sent := by rw [sent_put h.uncut, append_assoc, h.sent]
  accepted := h.accepted
  uncut := cut_put.trans h.uncut
  taken := by
    have := h.taken
    rw [taken_put, sent_put h.uncut, length_append]
    omega
  expects := by
    rw [transit_put h.uncut h.taken, append_assoc]
    exact h.expects
  delivered := h.delivered
  owes := by rwa [closed_put]

section

variable (h : Link p tail lost cells todo)

include h

lemma Link.fail :
    Link { p with shared := (fail p.shared).1, pump := .exited } tail lost cells todo :=
  { h with owes := trivial }

lemma leads_writing (answer : WriteAnswer) (hp : p.pump = .writing rest) :
    Leads c p (p.step c (.carrier answer)) tail lost (Steady c p (.carrier answer)) := by
  have ho := h.owes
  rw [hp] at ho
  obtain ⟨rfl, hne, rfl, hc⟩ := ho
  simp only [step, hp, Steady]
  cases answer with
  | pending =>
    rw [poll, pollWrite, if_neg (by simp [hc])]
    exact ⟨tail, [], cells, todo, { h with owes := ⟨rfl, hne, rfl, hc⟩ }, fun _ _ => trivial⟩
  | failed =>
    rw [poll, pollWrite, if_neg (by simp [hc])]
    exact ⟨tail, [], cells, todo, h.fail, fun hok _ => absurd rfl hok.1⟩
  | accepted n =>
    cases n with
    | zero =>
      rw [poll_accepted_zero hc]
      exact ⟨tail, [], cells, todo, h.fail, fun hok _ => absurd rfl hok.2⟩
    | succ n =>
      obtain ⟨k, hk⟩ := poll_accepted_succ hc hne
      rw [hk]
      rw [← take_append_drop k tail] at h
      refine ⟨tail.drop k, [], cells, todo, h.put ?_, fun _ _ => ?_⟩
      · split_ifs with hd
        · exact ⟨hd, rfl, hc⟩
        · exact ⟨rfl, hd, rfl, hc⟩
      · split_ifs <;> exact trivial

lemma leads_carrier (answer : WriteAnswer) :
    Leads c p (p.step c (.carrier answer)) tail lost (Steady c p (.carrier answer)) := by
  have ho := h.owes
  cases hp : p.pump with
  | writing rest => exact leads_writing h answer hp
  | flushing =>
    rw [hp] at ho
    simp only [step, hp, poll, Steady]
    cases answer with
    | pending | accepted n =>
      exact ⟨tail, lost, cells, todo, { h with owes := ho }, fun _ _ => trivial⟩
    | failed => exact ⟨tail, lost, cells, todo, h.fail, fun hok _ => absurd rfl hok⟩
  | closing =>
    rw [hp] at ho
    simp only [step, hp, poll]
    refine ⟨tail, lost, cells, todo, ?_, fun _ hs => ?_⟩
    · cases answer with
      | pending => exact { h with owes := ho }
      | failed | accepted n => exact { h with owes := trivial }
    · rw [hp] at hs
      cases answer with
      | pending | failed | accepted n => exact hs
  | top | waiting | exited =>
    rw [hp] at ho
    refine ⟨tail, lost, cells, todo, ?_, fun _ hs => ?_⟩
    · simp only [step, hp, poll]
      exact { h with owes := ho }
    · rw [hp] at hs
      simp only [step, hp, poll]
      exact hs

lemma leads_read (room : ℕ) (script : List ReadAnswer) :
    Leads c p (p.step c (.read room script)) tail lost ok := by
  have hr := FrameReader.pollRead_reads room (script.length + 1) p.reader (p.wire, script) h.expects
  rw [step]
  generalize p.reader.pollRead room (script.length + 1) (p.wire, script) = res at hr
  obtain ⟨out, reader, wire, rest⟩ := res
  obtain ⟨⟨l, hl⟩, todo', htd, hex⟩ := hr
  have ht := hl.taken_le h.taken
  have hd := h.delivered
  rw [htd, ← append_assoc] at hd
  obtain rfl : wire = { p.wire with taken := p.wire.taken + l.length } := hl.wire
  cases out with
  | ready data =>
    exact ⟨tail, lost, cells, todo',
      { h with taken := ht, expects := hex, delivered := hd }, fun _ hs => hs⟩
  | pending | failed =>
    simp only [FrameReader.output, append_nil] at hd
    exact ⟨tail, lost, cells, todo',
      { h with taken := ht, expects := hex, delivered := hd }, fun _ hs => hs⟩

lemma leads_step (event : PacedEvent) :
    Leads c p (p.step c event) tail lost (Steady c p event) := by
  cases event with
  | write data => exact leads_write h data
  | shutdown => exact leads_shutdown h
  | token tok dropped => exact leads_token h tok dropped
  | fire => exact leads_fire h
  | carrier answer => exact leads_carrier h answer
  | read room script => exact leads_read h room script

end

lemma link_new : Link new [] [] [] [] :=
  ⟨rfl, rfl, rfl, le_refl 0, ⟨by decide, [], rfl, rfl⟩, rfl, rfl, rfl, rfl⟩

lemma link_run (events : List PacedEvent) :
    ∃ tail lost cells todo, Link (run (step c) new events) tail lost cells todo := by
  refine inv_run (I := fun p => ∃ tail lost cells todo, Link p tail lost cells todo)
    (fun p event hp _ => ?_) new events ⟨_, _, _, _, link_new⟩ (along_true new events)
  obtain ⟨tail, lost, cells, todo, h⟩ := hp
  obtain ⟨tail', lost', cells', todo', h', -⟩ := leads_step h event
  exact ⟨tail', lost', cells', todo', h'⟩

lemma settled_run {events : List PacedEvent} (h : Runs.Along (step c) (Steady c) new events) :
    ∃ tail lost cells todo, Link (run (step c) new events) tail lost cells todo ∧
      (run (step c) new events).pump.Settled c (run (step c) new events).shared tail lost := by
  refine inv_run (I := fun p => ∃ tail lost cells todo, Link p tail lost cells todo ∧
    p.pump.Settled c p.shared tail lost) (fun p event hp hok => ?_) new events
    ⟨_, _, _, _, link_new, trivial⟩ h
  obtain ⟨tail, lost, cells, todo, hl, hs⟩ := hp
  obtain ⟨tail', lost', cells', todo', hl', hs'⟩ := leads_step hl event
  exact ⟨tail', lost', cells', todo', hl', hs' hok hs⟩

/-- All that was accepted is on the wire. -/
def Written (p : Paced) : Prop :=
  ∃ cells, p.wire.sent = encodeCells cells ∧ reals cells = p.accepted

/-- The peer reads a prefix of what was accepted, and a shutdown has written all of it. -/
theorem paced_transparent (c : Carrier) (events : List PacedEvent) :
    (run (step c) new events).delivered <+: (run (step c) new events).accepted ∧
    (Runs.Along (step c) (Steady c) new events → (pollShutdown (run (step c) new events).shared
        (run (step c) new events).pump).1 = .ready () → (run (step c) new events).Written) := by
  constructor
  · obtain ⟨tail, lost, cells, todo, h⟩ := link_run events
    rw [h.accepted, h.delivered, append_assoc]
    exact prefix_append _ _
  · intro hst hr
    obtain ⟨tail, lost, cells, todo, h, hs⟩ := settled_run hst
    generalize run (step c) new events = p at h hs hr ⊢
    cases hp : p.pump with
    | exited =>
      rw [hp] at hs
      obtain ⟨-, hb, rfl, rfl⟩ := hs
      refine ⟨cells, ?_, ?_⟩
      · rw [← h.sent, append_nil]
      · rw [h.accepted, hb, append_nil, append_nil]
    | _ =>
      rw [hp] at hr
      cases hr

def raw : Carrier := ⟨.none, false⟩

def threeTokens : List PacedEvent :=
  [.write [1, 2, 3], .token ⟨some 0, 6⟩ false, .fire, .carrier (.accepted 3), .read 1 [.upTo 9],
    .carrier (.accepted 9), .carrier (.accepted 0), .token ⟨some 5, 0⟩ false, .shutdown, .fire,
    .carrier (.accepted 9), .carrier (.accepted 0), .read 8 [.upTo 0, .upTo 9],
    .token ⟨some 9, 20⟩ false, .fire, .carrier (.accepted 99), .carrier .pending,
    .carrier (.accepted 0), .token ⟨some 9, 9⟩ false, .carrier (.accepted 0), .read 8 [.upTo 99]]

theorem paced_transparent_three_tokens : (run (step raw) new threeTokens).delivered = [1, 2, 3] ∧
      (run (step raw) new threeTokens).Written := by
  refine ⟨by decide +kernel, (paced_transparent raw threeTokens).2 ?_ ?_⟩
  · decide +kernel
  · decide +kernel

/-- A byte has been accepted, the carrier fails, and the shutdown is over nevertheless. -/
theorem shutdown_over_unwritten :
    (let p := run (step raw) new
      [.write [7], .token ⟨some 0, 9⟩ false, .fire, .carrier .failed, .shutdown]
     p.accepted = [7] ∧ p.wire.sent = [] ∧ (pollShutdown p.shared p.pump).1 = .ready ()) ∧
    ¬ (run (step raw) new
      [.write [7], .token ⟨some 0, 9⟩ false, .fire, .carrier .failed, .shutdown]).Written := by
  refine ⟨by decide +kernel, ?_⟩
  rintro ⟨cells, hs, hr⟩
  cases cells with
  | nil =>
    revert hr
    decide +kernel
  | cons x cells =>
    rw [encodeCells_cons] at hs
    have hl := congrArg length hs
    rw [length_append, length_beBytes] at hl
    have hz : (run (step raw) new [.write [7], .token ⟨some 0, 9⟩ false, .fire,
        .carrier .failed, .shutdown]).wire.sent.length = 0 := by decide +kernel
    omega

end Paced

/-! ### What the wire shows -/

lemma length_buildFrame {len : ℕ} (h : frameHeader + real.length ≤ len) :
    (buildFrame real len).length = len := by
  simp only [buildFrame, length_append, length_beBytes, length_replicate, frameHeader] at h ⊢
  omega

/-- The schedule and the carrier, not those who write and read. -/
def PacedEvent.paces : PacedEvent → Bool
  | .token _ _ | .fire | .carrier _ => true
  | _ => false

/-- The pumps are at the same place, with as much of a frame left to write. -/
inductive Pump.Alike : Pump → Pump → Prop
  | same (pump : Pump) : Alike pump pump
  | writing {rest rest' : Bytes} (h : rest.length = rest'.length) :
    Alike (.writing rest) (.writing rest')

def Pump.left : Pump → ℕ
  | .writing rest => rest.length
  | _ => 0

lemma Pump.Alike.left {pump pump' : Pump} (h : pump.Alike pump') : pump.left = pump'.left := by
  cases h with
  | same => rfl
  | writing h => exact h

namespace Paced

variable {c : Carrier} {p q : Paced} {event : PacedEvent}

/-- Neither is shut down, and the lengths do not tell them apart. -/
structure Alike (p q : Paced) : Prop where
  opened : p.shared.closed = false ∧ q.shared.closed = false
  pump : p.pump.Alike q.pump
  sent : p.wire.sent.length = q.wire.sent.length
  ended : p.wire.closed = q.wire.closed ∧ p.wire.cut = q.wire.cut

lemma Alike.quiet (hl : Link p tail lost cells todo) (h : Alike p q) (hp : event.paces = false)
    (hs : event ≠ .shutdown) : Alike (p.step c event) q := by
  cases event with
  | token | fire | carrier => cases hp
  | shutdown => exact absurd rfl hs
  | write data =>
    have hc : (p.shared.pollWrite data).2.closed = p.shared.closed := by
      unfold WriteShared.pollWrite
      split_ifs <;> rfl
    rw [step]
    split <;>
    · rename_i heq
      rw [heq] at hc
      exact { h with opened := ⟨hc.trans h.opened.1, h.opened.2⟩ }
  | read room script =>
    have hr := FrameReader.pollRead_reads room (script.length + 1) p.reader (p.wire, script)
      hl.expects
    rw [step]
    generalize p.reader.pollRead room (script.length + 1) (p.wire, script) = res at hr
    obtain ⟨out, reader, wire, rest⟩ := res
    obtain ⟨l, hk⟩ := hr.took
    obtain rfl : wire = { p.wire with taken := p.wire.taken + l.length } := hk.wire
    cases out <;> exact ⟨h.opened, h.pump, h.sent, h.ended⟩

lemma length_sent_put {w w' : Wire UInt8} {l l' : Bytes} (hs : w.sent.length = w'.sent.length)
    (hc : w.cut = w'.cut) (hl : l.length = l'.length) :
    (w.put l).sent.length = (w'.put l').sent.length := by
  unfold Wire.put
  rw [hc]
  split_ifs
  · exact hs
  · simp [hs, hl]

lemma Alike.write (h : Alike p q) (answer : WriteAnswer) (hp : p.pump = .writing rest)
    (hq : q.pump = .writing rest') (hl : rest.length = rest'.length) :
    Alike (p.step c (.carrier answer)) (q.step c (.carrier answer)) := by
  have hw : Pump.Alike (.writing rest) (.writing rest') := .writing hl
  simp only [step, hp, hq, poll, Wire.pollWrite, h.ended.1]
  cases hc : q.wire.closed with
  | true => exact ⟨h.opened, .same _, h.sent, h.ended⟩
  | false =>
    cases answer with
    | pending => exact ⟨h.opened, hw, h.sent, h.ended⟩
    | failed => exact ⟨h.opened, .same _, h.sent, h.ended⟩
    | accepted n =>
      have hn : (rest.take n).length = (rest'.take n).length := by simp [hl]
      have hs := length_sent_put h.sent h.ended.2 hn
      simp only [Bool.false_eq_true, if_false, hl]
      cases min n rest'.length with
      | zero => exact ⟨h.opened, .same _, hs, by simpa using h.ended⟩
      | succ k =>
        refine ⟨h.opened, ?_, hs, by simpa using h.ended⟩
        simp only [drop_eq_nil_iff, hl]
        split_ifs
        · exact .same _
        · exact .writing (by simp [hl])

lemma Alike.step (h : Alike p q) (hp : event.paces = true) :
    Alike (p.step c event) (q.step c event) := by
  have ha := h.pump
  generalize hpp : p.pump = pump at ha
  generalize hqp : q.pump = pump' at ha
  cases event with
  | write | shutdown | read => cases hp
  | token tok dropped =>
    simp only [Paced.step, hpp, hqp]
    cases ha with
    | writing => exact h
    | same =>
      cases pump with
      | top =>
        simp only [Pump.next, h.opened, Bool.false_eq_true, false_and, if_false]
        exact { h with pump := .same _ }
      | _ => exact h
  | fire =>
    simp only [Paced.step, hpp, hqp]
    cases ha with
    | writing => exact h
    | same =>
      cases pump with
      | waiting tok =>
        have hf : frameHeader ≤ frameLen c tok := Nat.le_max_right _ _
        have hl (buf : Bytes) : (buildFrame (buf.take (min (frameLen c tok - frameHeader) 65535))
            (frameLen c tok)).length = frameLen c tok :=
          length_buildFrame (by rw [length_take]; omega)
        dsimp only [Pump.fire]
        split_ifs
        · exact { h with pump := .same _ }
        · exact { h with pump := .writing ((hl _).trans (hl _).symm) }
      | _ => exact h
  | carrier answer =>
    cases ha with
    | writing hl => exact h.write answer hpp hqp hl
    | same =>
      cases pump with
      | writing => exact h.write answer hpp hqp rfl
      | flushing | closing =>
        cases answer <;> simp only [Paced.step, hpp, hqp, poll, pollFlush, Wire.pollShutdown]
        all_goals exact ⟨h.opened, .same _, h.sent, by simp [h.ended]⟩
      | top | waiting | exited =>
        simp only [Paced.step, hpp, hqp, poll]
        exact { h with pump := .same _ }

lemma Alike.run : ∀ {events : List PacedEvent} {p q : Paced} {tail lost todo : Bytes}
    {cells : List Cell}, Link p tail lost cells todo → Alike p q → .shutdown ∉ events →
    Alike (Runs.run (Paced.step c) p events) (Runs.run (Paced.step c) q (events.filter (·.paces)))
  | [], _, _, _, _, _, _, _, h, _ => h
  | event :: events, p, q, _, _, _, _, hl, h, hs => by
    rw [mem_cons, not_or] at hs
    obtain ⟨_, _, _, _, hk, -⟩ := leads_step (c := c) hl event
    cases hp : event.paces with
    | true =>
      rw [filter_cons_of_pos hp]
      exact Alike.run hk (h.step hp) hs.2
    | false =>
      rw [filter_cons_of_neg (by simp [hp])]
      exact Alike.run hk (h.quiet hl hp (Ne.symm hs.1)) hs.2

/-- Two runs that are not shut down and differ in writes and reads alone look the same to the
carrier. -/
theorem wire_ignores_payload (c : Carrier) (events events' : List PacedEvent)
    (hs : .shutdown ∉ events ++ events')
    (he : events.filter (·.paces) = events'.filter (·.paces)) :
    let p := Runs.run (Paced.step c) new events
    let q := Runs.run (Paced.step c) new events'
    p.wire.sent.length = q.wire.sent.length ∧ p.pump.left = q.pump.left := by
  rw [mem_append, not_or] at hs
  have hn : Alike new new := ⟨⟨rfl, rfl⟩, .same _, rfl, rfl, rfl⟩
  have hp := Alike.run (c := c) link_new hn hs.1
  have hq := Alike.run (c := c) link_new hn hs.2
  rw [he] at hp
  exact ⟨hp.sent.trans hq.sent.symm, hp.pump.left.trans hq.pump.left.symm⟩

theorem wire_ignores_payload_idle :
    let paced := [.token ⟨some 0, 9⟩ false, .fire, .carrier (.accepted 5)]
    let p := run (step raw) new (.write [1, 2, 3] :: paced ++ [.read 8 [.upTo 9]])
    let q := run (step raw) new paced
    p.delivered = [1, 2, 3] ∧ p.pump.left = 4 ∧ q.pump.left = 4 ∧
      p.wire.sent.length = q.wire.sent.length := by
  refine ⟨by decide +kernel, by decide +kernel, by decide +kernel, ?_⟩
  exact (wire_ignores_payload raw _ _ (by simp) (by simp [PacedEvent.paces])).1

end Paced

end Mirage.Transport
