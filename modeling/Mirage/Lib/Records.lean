import Mathlib.Data.List.Basic

/-!
# Records of one length behind a buffered writer

A `BufWriter` holds back what the sink has not taken. A fault is the number of units the sink still
takes before a write fails; a failed flush leaves the rest in the buffer (`stream`). Reading a file
record by record gives the records back (`blocks_flatMap`).
-/

namespace Records

open List Nat

variable {β ρ : Type*} {capacity n : ℕ}

structure BufWriter (β : Type*) where
  sink : List β
  buf : List β

namespace BufWriter

variable (w : BufWriter β)

variable (limit : Option ℕ)

def taken (len : ℕ) : ℕ :=
  match limit with
  | none => len
  | some n => min n len

/-- `flush_buf`: whether it succeeded, and the writer after it. -/
def flushBuf : Bool × BufWriter β :=
  let n := taken limit w.buf.length
  (n = w.buf.length, ⟨w.sink ++ w.buf.take n, w.buf.drop n⟩)

/-- `write_all`: input that does not fit is written after a flush, and one as big as the buffer past
it. -/
def writeAll (capacity : ℕ) (input : List β) (limit : Option ℕ) : Bool × BufWriter β :=
  let spare := capacity - w.buf.length
  if input.length < spare then (true, { w with buf := w.buf ++ input })
  else
    let p := if spare < input.length then w.flushBuf limit else (true, w)
    if p.1 = false then p
    else if capacity ≤ input.length then
      let n := taken (limit.map (· - w.buf.length)) input.length
      (n = input.length, { p.2 with sink := p.2.sink ++ input.take n })
    else (true, { p.2 with buf := p.2.buf ++ input })

def stream : List β := w.sink ++ w.buf

variable {w}

@[simp]
lemma stream_flushBuf : (w.flushBuf limit).2.stream = w.stream := by
  simp [flushBuf, stream]

lemma sink_prefix_flushBuf : w.sink <+: (w.flushBuf limit).2.sink :=
  prefix_append _ _

lemma buf_flushBuf {limit : Option ℕ} (h : (w.flushBuf limit).1 = true) :
    (w.flushBuf limit).2.buf = [] := by
  simp only [flushBuf, decide_eq_true_eq] at h ⊢
  rw [h, drop_length]

lemma flushBuf_none : w.flushBuf none = (true, ⟨w.stream, []⟩) := by
  simp [flushBuf, taken, stream]

variable {input : List β}

lemma writeAll_cases (hc : input.length < capacity) (limit : Option ℕ) :
    w.writeAll capacity input limit = (true, { w with buf := w.buf ++ input }) ∨
    (w.flushBuf limit).1 = true ∧ w.writeAll capacity input limit =
      (true, { (w.flushBuf limit).2 with buf := (w.flushBuf limit).2.buf ++ input }) ∨
    (w.flushBuf limit).1 = false ∧ w.writeAll capacity input limit = w.flushBuf limit := by
  unfold writeAll
  simp only [if_neg (Nat.not_le.2 hc)]
  by_cases h₁ : input.length < capacity - w.buf.length
  · exact .inl (if_pos h₁)
  by_cases h₂ : capacity - w.buf.length < input.length
  · simp only [if_neg h₁, if_pos h₂]
    rcases hf : (w.flushBuf limit).1 with _ | _
    · exact .inr (.inr ⟨rfl, rfl⟩)
    · exact .inr (.inl ⟨rfl, rfl⟩)
  · simp only [if_neg h₁, if_neg h₂]
    exact .inl rfl

lemma stream_writeAll (hc : input.length < capacity) (limit : Option ℕ) :
    (w.writeAll capacity input limit).2.stream =
      if (w.writeAll capacity input limit).1 then w.stream ++ input else w.stream := by
  rcases writeAll_cases hc limit with h | ⟨-, h⟩ | ⟨hf, h⟩ <;> rw [h]
  · simp [stream]
  · have hs := stream_flushBuf (w := w) limit
    simp only [stream, ← append_assoc] at hs ⊢
    rw [hs, if_pos trivial]
  · rw [hf, stream_flushBuf]
    rfl

lemma sink_prefix_writeAll (hc : input.length < capacity) (limit : Option ℕ) :
    w.sink <+: (w.writeAll capacity input limit).2.sink := by
  rcases writeAll_cases hc limit with h | ⟨-, h⟩ | ⟨-, h⟩
  · exact h ▸ prefix_refl w.sink
  · exact h ▸ sink_prefix_flushBuf limit
  · exact h ▸ sink_prefix_flushBuf limit

end BufWriter

section Blocks

/-- The records of length `n` of a file, up to a shorter tail; `fuel` bounds their number. -/
def blocks (n : ℕ) (decode : List β → ρ) : ℕ → List β → List ρ
  | 0, _ => []
  | fuel + 1, file =>
    if file.length < n then [] else decode (file.take n) :: blocks n decode fuel (file.drop n)

variable {n : ℕ} {encode : ρ → List β} (hlen : ∀ r, (encode r).length = n)

include hlen

lemma length_flatMap (rs : List ρ) : (rs.flatMap encode).length = n * rs.length := by
  simp [List.length_flatMap, hlen, Nat.mul_comm]

lemma take_flatMap : ∀ (rs : List ρ) (k : ℕ),
    (rs.flatMap encode).take (n * k) = (rs.take k).flatMap encode
  | [], _ => by simp
  | _ :: _, 0 => by simp
  | r :: rs, k + 1 => by
    rw [flatMap_cons, take_append, hlen, Nat.mul_succ, Nat.add_sub_cancel,
      take_flatMap, take_of_length_le (by rw [hlen]; exact Nat.le_add_left _ _),
      take_succ_cons, flatMap_cons]

lemma drop_flatMap : ∀ (rs : List ρ) (k : ℕ),
    (rs.flatMap encode).drop (n * k) = (rs.drop k).flatMap encode
  | [], _ => by simp
  | _ :: _, 0 => by simp
  | r :: rs, k + 1 => by
    rw [flatMap_cons, drop_append, hlen, Nat.mul_succ, Nat.add_sub_cancel,
      drop_flatMap, drop_of_length_le (by rw [hlen]; exact Nat.le_add_left _ _),
      drop_succ_cons, nil_append]

variable {decode : List β → ρ}

lemma blocks_flatMap (hn : 0 < n) (hdc : ∀ r, decode (encode r) = r) :
    ∀ (rs : List ρ) (fuel : ℕ), rs.length ≤ fuel → blocks n decode fuel (rs.flatMap encode) = rs
  | [], 0, _ => rfl
  | [], fuel + 1, _ => by simp [blocks, hn]
  | r :: rs, fuel + 1, h => by
    have hle : ¬((r :: rs).flatMap encode).length < n := by
      rw [length_flatMap hlen, length_cons, Nat.mul_succ]
      exact Nat.not_lt.2 (Nat.le_add_left _ _)
    have ht := take_flatMap hlen (r :: rs) 1
    have hd := drop_flatMap hlen (r :: rs) 1
    rw [Nat.mul_one] at ht hd
    rw [blocks, if_neg hle, ht, hd]
    simp only [take_succ_cons, take_zero, flatMap_singleton, drop_succ_cons, drop_zero, hdc]
    rw [blocks_flatMap hn hdc rs fuel (le_of_succ_le_succ h)]

omit hlen in
lemma flatMap_blocks (hn : 0 < n)
    (he : ∀ file, file.length = n → encode (decode file) = file) :
    ∀ fuel file, file.length / n ≤ fuel →
      (blocks n decode fuel file).flatMap encode = file.take (n * (file.length / n))
  | 0, file, h => by
    rw [le_zero.1 h]
    rfl
  | fuel + 1, file, h => by
    unfold blocks
    split_ifs with hlt
    · rw [div_eq_of_lt hlt]
      rfl
    have hle : n ≤ file.length := Nat.not_lt.1 hlt
    have hd : file.length / n = (file.drop n).length / n + 1 := by
      rw [length_drop, div_eq_sub_div hn hle]
    have hf : (file.take n).length = n := by rw [length_take, Nat.min_eq_left hle]
    rw [flatMap_cons, he _ hf, flatMap_blocks hn he fuel _ (by omega), hd,
      Nat.mul_succ, Nat.add_comm, take_add]

end Blocks

section Chunks

/-- The pieces of length `n` of a list, the last one shorter; `fuel` bounds their number. -/
def chunksOf (n : ℕ) : ℕ → List β → List (List β)
  | 0, _ => []
  | fuel + 1, l => if l.isEmpty then [] else l.take n :: chunksOf n fuel (l.drop n)

def chunks (n : ℕ) (l : List β) : List (List β) := chunksOf n l.length l

lemma flatten_chunksOf (hn : 0 < n) : ∀ (fuel : ℕ) (l : List β), l.length ≤ fuel →
    (chunksOf n fuel l).flatten = l
  | 0, l, h => by
    rw [length_eq_zero_iff.1 (le_zero.1 h)]
    rfl
  | fuel + 1, l, h => by
    unfold chunksOf
    split_ifs with he
    · rw [isEmpty_iff.1 he]
      rfl
    · rw [flatten_cons, flatten_chunksOf hn fuel _ (by simp; omega), take_append_drop]

lemma flatten_chunks (hn : 0 < n) (l : List β) : (chunks n l).flatten = l :=
  flatten_chunksOf hn _ l (Nat.le_refl _)

lemma length_le_of_mem_chunksOf {piece : List β} :
    ∀ fuel l, piece ∈ chunksOf n fuel l → piece.length ≤ n
  | 0, _, h => by simp [chunksOf] at h
  | fuel + 1, l, h => by
    unfold chunksOf at h
    split_ifs at h
    · simp at h
    · rcases mem_cons.1 h with rfl | h
      · exact length_take_le n l
      · exact length_le_of_mem_chunksOf fuel _ h

lemma length_le_of_mem_chunks {l piece : List β} (h : piece ∈ chunks n l) : piece.length ≤ n :=
  length_le_of_mem_chunksOf _ l h

lemma mapM_eq_ok {α γ ε : Type} {f : α → Except ε γ} {g : α → γ} :
    ∀ {l : List α}, (∀ x ∈ l, f x = .ok (g x)) → l.mapM f = .ok (l.map g)
  | [], _ => rfl
  | x :: l, h => by
    have hx := h x mem_cons_self
    have hl := mapM_eq_ok fun y hy => h y (mem_cons_of_mem x hy)
    rw [mapM_cons, hx, hl]
    rfl

end Chunks

end Records
