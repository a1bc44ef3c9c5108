import Mirage.Lib.Runs
import Mirage.Runtime.CellReader

/-!
# Cells survive the loop

However the bytes come in, a loop gets the cells that were written, as long as no read is dropped
that has bytes of a cell.
-/

namespace Mirage.Runtime

open Circuits Words Runs CellReader List

structure Frame where
  cell : Cell
  pad : Bytes
  valid : cell.Valid
  length_pad : pad.length = maxCellPayload - cell.body.length

namespace Frame

def bytes (f : Frame) : Bytes := f.cell.encode f.pad

lemma length_bytes (f : Frame) : f.bytes.length = circuitCellLen := by
  have hf := f.valid.fits
  have hp := f.length_pad
  unfold bytes Cell.encode
  simp only [length_append, length_cons, length_beBytes]
  unfold maxCellPayload cellHeaderLen circuitCellLen at *
  omega

end Frame

def wire (fs : List Frame) : Bytes := fs.flatMap Frame.bytes

lemma wire_cons (f : Frame) (fs : List Frame) : wire (f :: fs) = f.bytes ++ wire fs :=
  flatMap_cons

namespace CellReader

variable {r : CellReader} {ev : ReadEvent} {fs : List Frame}

/-- What has come and what is to come are the cells of the stream. -/
structure Aligned (fs : List Frame) (r : CellReader) : Prop where
  ok : r.failed = none
  short : r.future.buf.length < circuitCellLen
  split : ∃ done rest, fs = done ++ rest ∧ r.cells = done.map Frame.cell ∧
    r.future.buf ++ r.stream = wire rest

/-- Only a read that has nothing is dropped. -/
def Whole (r : CellReader) : ReadEvent → Prop
  | .poll _ => True
  | .cancel => r.future.buf = []

instance (r : CellReader) : ∀ ev, Decidable (r.Whole ev)
  | .poll _ => isTrue trivial
  | .cancel => inferInstanceAs (Decidable (_ = _))

lemma short_new : ReadCell.new.buf.length < circuitCellLen := by decide

lemma aligned_start : (start (wire fs)).Aligned fs :=
  ⟨rfl, short_new, [], fs, rfl, rfl, rfl⟩

lemma Aligned.pollRead (h : r.Aligned fs) (ready : ℕ) : (r.pollRead ready).Aligned fs := by
  obtain ⟨hok, hsh, done, rest, hfs, hc, hb⟩ := h
  unfold CellReader.pollRead ReadCell.poll
  dsimp only
  set n := min ready r.future.wanted
  have hs : r.future.buf ++ r.stream.take n ++ r.stream.drop n = wire rest := by
    rw [append_assoc, take_append_drop, hb]
  have hle : (r.future.buf ++ r.stream.take n).length ≤ circuitCellLen := by
    have hn : n ≤ circuitCellLen - r.future.buf.length := Nat.min_le_right _ _
    rw [length_append, length_take]
    omega
  split_ifs with hf
  · -- a whole cell of bytes is there, so it is the next frame
    cases rest with
    | nil =>
      have hnl := congrArg length hs
      rw [length_append, hf] at hnl
      exact absurd hnl (by simp [wire, circuitCellLen])
    | cons f rest =>
      obtain ⟨hfr, hr⟩ := append_inj hs (hf.trans f.length_bytes.symm)
      rw [hfr, Frame.bytes, Cell.decode_encode f.valid f.length_pad]
      refine ⟨rfl, short_new, done ++ [f], rest, ?_, ?_, hr⟩
      · rw [hfs, append_assoc, singleton_append]
      · rw [hc, map_append, map_singleton]
  · exact ⟨hok, lt_of_le_of_ne hle hf, done, rest, hfs, hc, hs⟩

lemma Aligned.step (h : r.Aligned fs) (hw : r.Whole ev) : (r.step ev).Aligned fs := by
  unfold CellReader.step
  rw [h.ok]
  cases ev with
  | poll ready => exact h.pollRead ready
  | cancel =>
    refine ⟨rfl, short_new, ?_⟩
    have hs := h.split
    rw [show r.future.buf = [] from hw] at hs
    exact hs

def polls : List ReadEvent → ℕ
  | [] => 0
  | .poll 0 :: events => polls events
  | .poll (_ + 1) :: events => polls events + 1
  | .cancel :: events => polls events

lemma length_stream_pollRead (r : CellReader) (ready : ℕ) :
    (r.pollRead ready).stream.length = r.stream.length - min ready r.future.wanted := by
  unfold pollRead
  dsimp only
  split <;> exact length_drop

lemma length_stream_run : ∀ {events : List ReadEvent} {r : CellReader}, r.Aligned fs →
    Along step Whole r events → (run step r events).stream.length ≤ r.stream.length - polls events
  | [], _, _, _ => Nat.le_refl _
  | .cancel :: events, r, hr, h => by
    have hrs := length_stream_run (hr.step h.1) h.2
    have hs : (r.step .cancel).stream = r.stream := by
      unfold step
      rw [hr.ok]
    rw [run_cons, polls, ← hs]
    exact hrs
  | .poll ready :: events, r, hr, h => by
    have hrs := length_stream_run (hr.step h.1) h.2
    have hp : (r.step (.poll ready)).stream.length =
        r.stream.length - min ready r.future.wanted := by
      unfold step
      rw [hr.ok]
      exact r.length_stream_pollRead ready
    have hw : 0 < r.future.wanted := Nat.sub_pos_of_lt hr.short
    rw [run_cons]
    cases ready with
    | zero | succ n =>
      rw [polls]
      omega

lemma Aligned.all (h : r.Aligned fs) (hr : r.stream = []) : r.cells = fs.map Frame.cell := by
  obtain ⟨-, hs, done, rest, rfl, hc, hb⟩ := h
  cases rest with
  | nil => rw [hc, append_nil]
  | cons f rest =>
    have hl := congrArg length hb
    rw [hr, append_nil, wire_cons, length_append, f.length_bytes] at hl
    omega

/-- If no read with bytes of a cell is dropped, the loop gets the cells of the stream in order. -/
theorem framing_survives (fs : List Frame) (events : List ReadEvent)
    (h : Along step Whole (start (wire fs)) events) :
    (run step (start (wire fs)) events).failed = none ∧
      (run step (start (wire fs)) events).cells <+: fs.map Frame.cell ∧
      ((wire fs).length ≤ polls events →
        (run step (start (wire fs)) events).cells = fs.map Frame.cell) := by
  have hrn := inv_run (fun _ _ hr hw => hr.step hw) _ events aligned_start h
  refine ⟨hrn.ok, ?_, fun hp => hrn.all ?_⟩
  · obtain ⟨done, rest, hfs, hc, -⟩ := hrn.split
    rw [hc, hfs, List.map_append]
    exact List.prefix_append _ _
  · have hl := length_stream_run aligned_start h
    refine List.eq_nil_of_length_eq_zero (Nat.eq_zero_of_le_zero (hl.trans ?_))
    change (wire fs).length - polls events ≤ 0
    omega

def empty : Frame :=
  ⟨⟨1, cmdRelay, []⟩, List.replicate 1017 0, ⟨by decide, by decide, by decide⟩,
    List.length_replicate⟩

def chunks : List ReadEvent := [.poll 1, .poll 1000, .poll 2000, .cancel, .poll 1024]

theorem framing_survives_chunks : Along step Whole (start (wire [empty, empty])) chunks ∧
      (run step (start (wire [empty, empty])) chunks).cells.length = 2 ∧
      (run step (start (wire [empty, empty])) chunks).cells <+: [empty, empty].map Frame.cell :=
  have hw := by decide +kernel
  ⟨hw, by decide +kernel, (framing_survives [empty, empty] chunks hw).2.1⟩

/-- One byte of a cell has come when another branch is done; the next 1024 are taken for a cell. -/
theorem cancel_loses_bytes :
    let r := run step (start (wire [empty, empty])) [.poll 1, .cancel, .poll 1024]
    r.cells = [] ∧ r.failed = some (.padLenTooLarge 63744) := by
  decide +kernel

end CellReader

end Mirage.Runtime
