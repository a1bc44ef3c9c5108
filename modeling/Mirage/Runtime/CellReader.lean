import Mirage.Circuit.Cell

/-!
# Reading cells in a loop

`read_cell` of `crates/runtime/src/cell_io.rs`, as the loops of `SessionTask::run`,
`run_circuit_relay` and `circuit_stream`'s `pump` use it: as a branch of `select!`. When another
branch is done first, `select!` drops the future with its buffer. A loop ends when a read fails.
-/

namespace Mirage.Runtime

open Circuits Words

/-- The future of `read_cell`, with what `read_exact` has of the cell so far. -/
structure ReadCell where
  buf : Bytes

namespace ReadCell

def new : ReadCell := ⟨[]⟩

def wanted (f : ReadCell) : ℕ := circuitCellLen - f.buf.length

def poll (f : ReadCell) (chunk : Bytes) : ReadCell ⊕ Except CellError Cell :=
  let buf := f.buf ++ chunk
  if buf.length = circuitCellLen then .inr (Cell.decode buf) else .inl ⟨buf⟩

end ReadCell

/-- A loop: what the stream still has, the read that is outstanding, and the cells it got. -/
structure CellReader where
  stream : Bytes
  future : ReadCell
  cells : List Cell
  failed : Option CellError

inductive ReadEvent
  /-- The stream is polled for the read and has at most so many bytes ready. -/
  | poll (ready : ℕ)
  /-- Another branch is done, the loop goes into its next turn. -/
  | cancel

namespace CellReader

def start (stream : Bytes) : CellReader := ⟨stream, .new, [], none⟩

def pollRead (r : CellReader) (ready : ℕ) : CellReader :=
  let n := min ready r.future.wanted
  let rest := r.stream.drop n
  match r.future.poll (r.stream.take n) with
  | .inl future => { r with stream := rest, future }
  | .inr (.ok cell) => ⟨rest, .new, r.cells ++ [cell], none⟩
  | .inr (.error e) => ⟨rest, .new, r.cells, some e⟩

def step (r : CellReader) (ev : ReadEvent) : CellReader :=
  match r.failed, ev with
  | some _, _ => r
  | none, .poll ready => r.pollRead ready
  | none, .cancel => { r with future := .new }

end CellReader

end Mirage.Runtime
