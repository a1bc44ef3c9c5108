import Mirage.Lib.Records

/-!
# Logs of records

A log is a header and records of one length, written through a `BufWriter`. A failed append cuts the
file back to whole records, and the buffer not; while the buffer has whole records the file grows by
whole records (`BufWriter.append_spec`).
-/

namespace Records

open List Nat

variable {β ρ : Type*} {h n capacity : ℕ}

/-- A file cut to a header of length `h` and whole records of length `n`. -/
def whole (h n : ℕ) (file : List β) : List β :=
  if h < file.length then
    let remainder := (file.length - h) % n
    if remainder ≠ 0 then file.take (file.length - remainder) else file
  else file

variable {hdr body : List β} {decode : List β → ρ}

lemma whole_append (hl : hdr.length = h) (body : List β) :
    whole h n (hdr ++ body) = hdr ++ body.take (n * (body.length / n)) := by
  have hs := div_add_mod body.length n
  simp only [whole, length_append, hl, Nat.add_sub_cancel_left]
  by_cases hz : body.length % n = 0
  · rw [if_neg (not_not.2 hz), ite_self, take_of_length_le (by omega)]
  have hp : body.length ≠ 0 := fun h0 => hz (by rw [h0]; exact Nat.zero_mod n)
  have hc : h + body.length - body.length % n = hdr.length + n * (body.length / n) := by omega
  rw [if_pos (Nat.lt_add_of_pos_right (Nat.pos_of_ne_zero hp)), if_pos hz, hc,
    take_length_add_append]

lemma whole_append_append (hl : hdr.length = h) (hb : body.length % n = 0) (more : List β) :
    whole h n (hdr ++ body ++ more) = hdr ++ body ++ more.take (n * (more.length / n)) := by
  rw [append_assoc, whole_append hl, append_assoc]
  obtain ⟨k, hk⟩ := dvd_of_mod_eq_zero hb
  rcases Nat.eq_zero_or_pos n with rfl | hn
  · obtain rfl : body = [] := length_eq_zero_iff.1 (by rw [hk, Nat.zero_mul])
    simp
  · have hd : n * ((body ++ more).length / n) = body.length + n * (more.length / n) := by
      rw [length_append, hk, Nat.mul_add_div hn, Nat.mul_add]
    rw [hd, take_length_add_append]

lemma length_take_mul_div (n : ℕ) (l : List β) : (l.take (n * (l.length / n))).length % n = 0 := by
  rw [length_take, Nat.min_eq_left (mul_div_le _ _), mul_mod_right]

/-- A test of a file that reads its first `h` elements. -/
structure HeaderTest (h : ℕ) (ok : List β → Bool) : Prop where
  take : ∀ file, ok (file.take h) = ok file
  length_le : ∀ {file}, ok file = true → h ≤ file.length

structure IsHeader (h : ℕ) (ok : List β → Bool) (hdr : List β) : Prop where
  length_eq : hdr.length = h
  ok : ok hdr = true

lemma headerTest [DecidableEq β] {k v : ℕ} (hk : k ≤ h) (hv : v < h) (magic : List β)
    (d version : β) : HeaderTest h fun file => decide (h ≤ file.length) &&
      decide (file.take k = magic) && decide (file.getD v d = version) := by
  refine ⟨fun file => ?_, fun hok => ?_⟩
  · have hvr : (file.take h).getD v d = file.getD v d := by
      rw [getD_eq_getElem?_getD, getElem?_take_of_lt hv, ← getD_eq_getElem?_getD]
    have hl : h ≤ min h file.length ↔ h ≤ file.length := by omega
    rw [length_take, take_take, hvr, Nat.min_eq_left hk, Bool.eq_iff_iff]
    simp [hl]
  · simp only [Bool.and_eq_true, decide_eq_true_eq] at hok
    exact hok.1.1

section Header

variable {ok : List β → Bool} {file : List β} (ht : HeaderTest h ok)

include ht

lemma HeaderTest.append (hh : IsHeader h ok hdr) (body : List β) : ok (hdr ++ body) = true := by
  rw [← ht.take, ← hh.length_eq, take_left]
  exact hh.ok

/-- A file that passes the test is a header and, cut to whole records, these. -/
lemma HeaderTest.whole (hok : ok file = true) : ∃ hdr body, IsHeader h ok hdr ∧ file = hdr ++ body ∧
      whole h n file = hdr ++ body.take (n * (body.length / n)) := by
  have hh : IsHeader h ok (file.take h) :=
    ⟨by rw [length_take, Nat.min_eq_left (ht.length_le hok)], (ht.take file).trans hok⟩
  refine ⟨_, file.drop h, hh, (take_append_drop h file).symm, ?_⟩
  rw [← whole_append hh.length_eq, take_append_drop]

end Header

lemma blocks_append (hn : 0 < n) : ∀ k fuel body more,
    body.length = n * k →
    blocks n decode (k + fuel) (body ++ more) = blocks n decode k body ++ blocks n decode fuel more
  | 0, fuel, body, more, hk => by
    rw [length_eq_zero_iff.1 hk, Nat.zero_add]
    rfl
  | k + 1, fuel, body, more, hk => by
    have hle : n ≤ body.length := by
      rw [hk, Nat.mul_succ]
      omega
    have hd : (body.drop n).length = n * k := by
      rw [length_drop, hk, mul_succ]
      omega
    have hlt : ¬ (body ++ more).length < n := by
      rw [length_append]
      omega
    rw [Nat.add_right_comm, blocks, blocks, if_neg hlt, if_neg (Nat.not_lt.2 hle),
      take_append_of_le_length hle, drop_append_of_le_length hle,
      blocks_append hn k fuel _ more hd, cons_append]

lemma blocks_fuel (decode : List β → ρ) (hn : 0 < n) : ∀ fuel more file,
    file.length / n ≤ fuel → blocks n decode (fuel + more) file = blocks n decode fuel file
  | 0, 0, _, _ => rfl
  | 0, more + 1, file, hle => by
    have hlt : file.length < n := by
      rcases Nat.lt_or_ge file.length n with hlt | hge
      · exact hlt
      · exact absurd (Nat.div_pos hge hn) (by omega)
    simp [blocks, if_pos hlt]
  | fuel + 1, more, file, hle => by
    rw [Nat.add_right_comm, blocks, blocks]
    split_ifs with hlt
    · rfl
    · have hd : file.length / n = (file.drop n).length / n + 1 := by
        rw [length_drop, Nat.div_eq_sub_div hn (Nat.not_lt.1 hlt)]
      rw [blocks_fuel decode hn fuel more _ (by omega)]

lemma blocks_length_append (hn : 0 < n) (hb : body.length % n = 0) (more : List β) :
    blocks n decode (body ++ more).length (body ++ more) =
      blocks n decode body.length body ++ blocks n decode more.length more := by
  obtain ⟨k, hk⟩ := Nat.dvd_of_mod_eq_zero hb
  have hle : k ≤ body.length := by
    rw [hk]
    exact Nat.le_mul_of_pos_left k hn
  have hd : body.length / n = k := by rw [hk, Nat.mul_div_cancel_left k hn]
  have hd' : (body ++ more).length / n ≤ k + more.length := by
    rw [length_append, hk, mul_add_div hn]
    exact Nat.add_le_add_left (Nat.div_le_self _ _) k
  have hf := blocks_fuel decode hn (k + more.length) (body.length - k) (body ++ more) hd'
  have hr := blocks_fuel decode hn k (body.length - k) body (Nat.le_of_eq hd)
  rw [Nat.add_sub_cancel' hle] at hr
  rw [hr, ← blocks_append hn k more.length body more hk, ← hf, length_append]
  congr 1
  omega

namespace BufWriter

variable (w : BufWriter β) (rec : List β)

/-- `write_all`, `flush` and what comes after, which `synced` says succeeds. -/
def writeRecord (capacity : ℕ) (write flush : Option ℕ) (synced : Bool) : Bool × BufWriter β :=
  let p := w.writeAll capacity rec write
  if p.1 = false then p
  else
    let q := p.2.flushBuf flush
    (q.1 && synced, q.2)

def realign (h n : ℕ) (limit : Option ℕ) : BufWriter β :=
  let w := (w.flushBuf limit).2
  { w with sink := whole h n w.sink }

def append (h n capacity : ℕ) (write flush limit : Option ℕ) (synced : Bool) : Bool × BufWriter β :=
  let p := w.writeRecord rec capacity write flush synced
  if p.1 then p else (false, p.2.realign h n limit)

variable {w rec}

/-- A record is written behind what was written before, or is refused as a whole. -/
theorem writeRecord_spec (hc : rec.length < capacity) (write flush : Option ℕ) (synced : Bool) :
    ∃ new, (new = [] ∨ new = rec) ∧
      (w.writeRecord rec capacity write flush synced).2.stream = w.stream ++ new ∧
      w.sink <+: (w.writeRecord rec capacity write flush synced).2.sink ∧
      ((w.writeRecord rec capacity write flush synced).1 = true →
        new = rec ∧ (w.writeRecord rec capacity write flush synced).2.buf = []) := by
  have hs := stream_writeAll (w := w) hc write
  have hsn := sink_prefix_writeAll (w := w) hc write
  simp only [writeRecord]
  generalize w.writeAll capacity rec write = p at hs hsn
  obtain ⟨_ | _, w'⟩ := p
  · refine ⟨[], .inl rfl, ?_, hsn, nofun⟩
    rw [append_nil]
    exact hs
  · have hf := stream_flushBuf (w := w') flush
    have hs' := sink_prefix_flushBuf (w := w') flush
    refine ⟨rec, .inr rfl, hf.trans hs, hsn.trans hs', fun hok => ⟨rfl, ?_⟩⟩
    simp only [Bool.true_eq_false, if_false, Bool.and_eq_true] at hok
    exact buf_flushBuf hok.1

/-- An append writes a front of what is due, and keeps the rest in the buffer. -/
theorem append_spec {hdr body : List β} (hl : hdr.length = h) (hb : body.length % n = 0)
    (hw : w.sink = hdr ++ body) (hbf : w.buf.length % n = 0) (hrc : rec.length = n)
    (hc : n < capacity) (write flush limit : Option ℕ) (synced : Bool) :
    ∃ new more, (new = [] ∨ new = rec) ∧
      (w.append rec h n capacity write flush limit synced).2.sink = hdr ++ body ++ more ∧
      more.length % n = 0 ∧ more <+: w.buf ++ new ∧
      ((w.append rec h n capacity write flush limit synced).2.buf.length % n = 0 →
        more ++ (w.append rec h n capacity write flush limit synced).2.buf = w.buf ++ new) ∧
      ((w.append rec h n capacity write flush limit synced).1 = true →
        new = rec ∧ (w.append rec h n capacity write flush limit synced).2.buf = []) := by
  obtain ⟨new, hnw, hs, ⟨t, ht⟩, hok⟩ :=
    writeRecord_spec (w := w) (hrc ▸ hc) write flush synced
  have hn : new.length % n = 0 := by
    rcases hnw with rfl | rfl
    · exact zero_mod n
    · rw [hrc, mod_self]
  simp only [append]
  generalize w.writeRecord rec capacity write flush synced = p at hs ht hok
  obtain ⟨ok, w'⟩ := p
  simp only [stream] at hs ht hok
  cases ok with
  | true =>
    obtain ⟨rfl, he⟩ := hok rfl
    rw [he, append_nil, hw, append_assoc] at hs
    refine ⟨new, w.buf ++ new, .inr rfl, ?_, ?_, prefix_refl _, fun _ => ?_, fun _ => ⟨rfl, he⟩⟩
    · rw [if_pos rfl, hs]
    · rw [length_append, add_mod, hbf, hn, zero_mod]
    · rw [if_pos rfl, he, append_nil]
  | false =>
    -- Behind the flush the file has all but what is left in the buffer.
    obtain ⟨t', ht'⟩ := sink_prefix_flushBuf limit
    have hf := stream_flushBuf (w := w') limit
    simp only [stream] at hf
    have hfl : (w'.flushBuf limit).2.sink = hdr ++ body ++ (t ++ t') := by
      rw [← ht', ← ht, hw]
      simp
    have hr : (t ++ t') ++ (w'.flushBuf limit).2.buf = w.buf ++ new := by
      rw [hs, hw, hfl] at hf
      simpa only [append_assoc, append_cancel_left_eq] using hf
    have htk : n * ((t ++ t').length / n) ≤ (t ++ t').length := mul_div_le _ _
    refine ⟨new, (t ++ t').take (n * ((t ++ t').length / n)), hnw, ?_, ?_, ?_, fun hz => ?_,
      fun hk => by cases hk⟩
    · simp only [Bool.false_eq_true, if_false, realign]
      rw [hfl, whole_append_append hl hb]
    · rw [length_take, Nat.min_eq_left htk, Nat.mul_mod_right]
    · exact ( take_prefix _ _).trans (hr ▸ prefix_append _ _)
    simp only [Bool.false_eq_true, if_false, realign] at hz ⊢
    have hl' := congrArg length hr
    have hz' : (t ++ t').length % n = 0 := by
      have hsm : (w.buf ++ new).length % n = 0 := by rw [length_append, add_mod, hbf, hn, zero_mod]
      rwa [← hl', length_append, Nat.add_mod, hz, Nat.add_zero, Nat.mod_mod] at hsm
    have hwh : n * ((t ++ t').length / n) = (t ++ t').length := by
      have hsp := div_add_mod (t ++ t').length n
      omega
    rw [hwh, take_length, hr]

end BufWriter

end Records
