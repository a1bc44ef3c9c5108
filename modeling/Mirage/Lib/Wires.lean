import Mathlib.Data.List.Basic

/-!
# Polled wires

A wire carries symbols from one end to the other. Each end is polled: a write takes a part of what
it is given, a read returns a part of what is in transit, or the poll is left pending or fails. How
the wire answers is a script; when it is over the polls are pending.
-/

namespace Wires

open List Nat

variable {α ε β : Type*}

inductive Poll (ε β : Type*)
  | pending
  | ready (b : β)
  | failed (e : ε)
  deriving DecidableEq

inductive WriteAnswer
  | pending
  | accepted (n : ℕ)
  | failed
  deriving DecidableEq

inductive ReadAnswer
  | pending
  | upTo (n : ℕ)
  | failed

/-- The symbols that reach the reading end, of which the first `taken` have been read. -/
structure Wire (α : Type*) where
  sent : List α
  taken : ℕ
  closed : Bool
  cut : Bool

namespace Wire

def transit (w : Wire α) : List α := w.sent.drop w.taken

def ended (w : Wire α) : Bool := w.closed || w.cut

def put (w : Wire α) (l : List α) : Wire α :=
  if w.cut then w else { w with sent := w.sent ++ l }

/-- The wire ends after `pos` symbols, or after those that have been read. -/
def cutAt (w : Wire α) (pos : ℕ) : Wire α :=
  { w with sent := w.sent.take (max pos w.taken), cut := true }

section

variable (e : ε)

def pollWrite (data : List α) (w : Wire α) (script : List WriteAnswer) :
    Poll ε ℕ × Wire α × List WriteAnswer :=
  if w.closed then (.failed e, w, script)
  else match script with
    | [] => (.pending, w, [])
    | .pending :: script => (.pending, w, script)
    | .failed :: script => (.failed e, w, script)
    | .accepted n :: script => (.ready (min n data.length), w.put (data.take n), script)

def pollFlush (w : Wire α) (script : List WriteAnswer) : Poll ε Unit × Wire α × List WriteAnswer :=
  match script with
  | [] => (.pending, w, [])
  | .pending :: script => (.pending, w, script)
  | .failed :: script => (.failed e, w, script)
  | .accepted _ :: script => (.ready (), w, script)

def pollShutdown (w : Wire α) (script : List WriteAnswer) :
    Poll ε Unit × Wire α × List WriteAnswer :=
  match script with
  | [] => (.pending, w, [])
  | .pending :: script => (.pending, w, script)
  | .failed :: script => (.failed e, w, script)
  | .accepted _ :: script => (.ready (), { w with closed := true }, script)

/-- A read into a buffer with room for `room` symbols. An empty answer is the end. -/
def pollRead (room : ℕ) (w : Wire α) (script : List ReadAnswer) :
    Poll ε (List α) × Wire α × List ReadAnswer :=
  match script with
  | [] => (.pending, w, [])
  | .pending :: script => (.pending, w, script)
  | .failed :: script => (.failed e, w, script)
  | .upTo n :: script =>
    let got := w.transit.take (min (n + 1) room)
    if w.transit = [] then (if w.ended then .ready [] else .pending, w, script)
    else (.ready got, { w with taken := w.taken + got.length }, script)

end

def Sane (script : List WriteAnswer) : Prop := ∀ a ∈ script, a ≠ .failed ∧ a ≠ .accepted 0

lemma Sane.tail {a : WriteAnswer} {script : List WriteAnswer} (h : Sane (a :: script)) :
    Sane script := fun b hb => h b (mem_cons_of_mem a hb)

variable {e : ε} {w w' w'' : Wire α} {l l' data : List α} {script : List WriteAnswer}

@[simp] lemma put_nil : w.put [] = w := by
  rw [put, append_nil, ite_self]

@[simp] lemma put_put : (w.put l).put l' = w.put (l ++ l') := by
  cases hc : w.cut <;> simp [put, hc]

@[simp] lemma closed_put : (w.put l).closed = w.closed := by
  rw [put]
  split <;> rfl

@[simp] lemma cut_put : (w.put l).cut = w.cut := by
  rw [put]
  split <;> rfl

@[simp] lemma taken_put : (w.put l).taken = w.taken := by
  rw [put]
  split <;> rfl

lemma sent_put (hc : w.cut = false) : (w.put l).sent = w.sent ++ l := by
  simp [put, hc]

lemma transit_put (hc : w.cut = false) (ht : w.taken ≤ w.sent.length) :
    (w.put l).transit = w.transit ++ l := by
  rw [transit, taken_put, sent_put hc, drop_append_of_le_length ht, transit]

lemma put_of_cut (hc : w.cut = true) : w.put l = w := by
  rw [put, if_pos hc]

lemma pollWrite_cases (hw : w.closed = false) (hs : Sane script) (hd : data ≠ []) :
    ∃ script', Sane script' ∧ (pollWrite e data w script = (.pending, w, script') ∨
      ∃ n, 0 < n ∧ n ≤ data.length ∧
        pollWrite e data w script = (.ready n, w.put (data.take n), script')) := by
  have hl := length_pos_of_ne_nil hd
  cases script with
  | nil => exact ⟨[], hs, .inl (by simp [pollWrite, hw])⟩
  | cons a script =>
    refine ⟨script, hs.tail, ?_⟩
    cases a with
    | pending => exact .inl (by simp [pollWrite, hw])
    | failed => exact absurd rfl (hs _ mem_cons_self).1
    | accepted n =>
      have hn : n ≠ 0 := by
        rintro rfl
        exact (hs _ mem_cons_self).2 rfl
      refine .inr ⟨min n data.length, by omega, Nat.min_le_right _ _, ?_⟩
      simp [pollWrite, hw, ← take_eq_take_min]

lemma pollWrite_of_closed (hw : w.closed = true) :
    pollWrite e data w script = (.failed e, w, script) := by
  simp [pollWrite, hw]

section

variable {s s' s'' : List ReadAnswer} {room : ℕ}

structure Took (w w' : Wire α) (l : List α) : Prop where
  wire : w' = { w with taken := w.taken + l.length }
  transit : w.transit = l ++ w'.transit

namespace Took

lemma refl (w : Wire α) : Took w w [] := ⟨rfl, rfl⟩

lemma trans (h : Took w w' l) (h' : Took w' w'' l') : Took w w'' (l ++ l') where
  wire := by rw [h'.wire, h.wire, length_append, Nat.add_assoc]
  transit := by rw [h.transit, h'.transit, append_assoc]

lemma ended (h : Took w w' l) : w'.ended = w.ended := by
  rw [h.wire]
  rfl

lemma taken_le (h : Took w w' l) (ht : w.taken ≤ w.sent.length) : w'.taken ≤ w'.sent.length := by
  have hl := congrArg length h.transit
  rw [length_append, Wire.transit, length_drop] at hl
  rw [h.wire]
  change w.taken + l.length ≤ w.sent.length
  omega

end Took

/-- The symbols `l` have been read, at least one for each answer used. -/
structure Read (w : Wire α) (s : List ReadAnswer) (w' : Wire α) (s' : List ReadAnswer)
    (l : List α) : Prop extends Took w w' l where
  used : s.length ≤ s'.length + l.length
  suffix : s' <:+ s

namespace Read

lemma refl : Read w s w s [] :=
  ⟨.refl w, Nat.le_refl _, suffix_refl s⟩

lemma trans (h : Read w s w' s' l) (h' : Read w' s' w'' s'' l') : Read w s w'' s'' (l ++ l') where
  toTook := h.toTook.trans h'.toTook
  used := by
    have := h.used
    have := h'.used
    rw [length_append]
    omega
  suffix := h'.suffix.trans h.suffix

end Read

/-- Why a poll is pending when `l` has been read: told to, no end yet, or the script is over. -/
def Waits (w : Wire α) (s : List ReadAnswer) (l : List α) : Prop :=
  ReadAnswer.pending ∈ s ∨ w.ended = false ∨ s.length ≤ l.length

lemma Waits.after (h : Read w s w' s' l) (hw : Waits w' s' l') : Waits w s (l ++ l') := by
  rcases hw with hp | he | hl
  · exact .inl (h.suffix.mem hp)
  · exact .inr (.inl (h.toTook.ended ▸ he))
  have := h.used
  refine .inr (.inr ?_)
  rw [length_append]
  omega

/-- The wire answers each poll, and has an answer left when nothing is in transit. -/
def Prompt (w : Wire α) (s : List ReadAnswer) : Prop :=
  (∀ a ∈ s, ∃ n, a = .upTo n) ∧ w.transit.length < s.length

lemma Prompt.not_failed (h : Prompt w s) : ReadAnswer.failed ∉ s := fun hf => by
  obtain ⟨n, hn⟩ := h.1 _ hf
  cases hn

lemma Prompt.not_waits (h : Prompt w s) (he : w.ended = true) (ht : Took w w' l) :
    ¬ Waits w s l := by
  rintro (hp | hp | hp)
  · obtain ⟨n, hn⟩ := h.1 _ hp
    cases hn
  · rw [he] at hp
    cases hp
  · have := h.2
    rw [ht.transit, length_append] at this
    omega

inductive Polled (e : ε) (w : Wire α) (room : ℕ) (s : List ReadAnswer) :
    Poll ε (List α) × Wire α × List ReadAnswer → Prop
  | pending {t : List ReadAnswer} (suffix : t <:+ s) (waits : Waits w s []) :
    Polled e w room s (.pending, w, t)
  | failed {t : List ReadAnswer} (h : ReadAnswer.failed ∈ s) : Polled e w room s (.failed e, w, t)
  | ended {t : List ReadAnswer} (suffix : t <:+ s) (ended : w.ended = true)
    (transit : w.transit = []) : Polled e w room s (.ready [], w, t)
  | some {x : α} {l : List α} {w' : Wire α} {t : List ReadAnswer} (read : Read w s w' t (x :: l))
    (fits : (x :: l).length ≤ room) : Polled e w room s (.ready (x :: l), w', t)

lemma pollRead_polled (e : ε) (w : Wire α) (hr : 0 < room) (s : List ReadAnswer) :
    Polled e w room s (pollRead e room w s) := by
  cases s with
  | nil => exact .pending (suffix_refl _) (.inr (.inr (Nat.le_refl 0)))
  | cons a s =>
    have hs : s <:+ a :: s := suffix_cons a s
    cases a with
    | pending => exact .pending hs (.inl mem_cons_self)
    | failed => exact .failed mem_cons_self
    | upTo n =>
      simp only [pollRead]
      split_ifs with ht he
      · exact .ended hs he ht
      · exact .pending hs (.inr (.inl (by simpa using he)))
      obtain ⟨x, l, hg⟩ : ∃ x l, w.transit.take (min (n + 1) room) = x :: l := by
        refine exists_cons_of_ne_nil ?_
        rw [Ne, take_eq_nil_iff, not_or]
        exact ⟨by omega, ht⟩
      have hl := congrArg length hg
      rw [length_take] at hl
      have hsp : w.transit = (x :: l) ++ w.sent.drop (w.taken + (x :: l).length) := by
        rw [← drop_drop, ← hg]
        exact (prefix_iff_eq_append.1 ( take_prefix _ w.transit)).symm
      rw [hg]
      exact .some ⟨⟨rfl, hsp⟩, by simp, hs⟩ (by omega)

end

end Wire

section

variable {σ : Type*}

/-- Polls a write until all of `data` is taken; `zero` is the error if a poll takes nothing. -/
def drain (poll : List α → σ → Poll ε ℕ × σ) (zero : ε) : ℕ → List α → σ → Poll ε Unit × ℕ × σ
  | 0, _, s => (.ready (), 0, s)
  | _ + 1, [], s => (.ready (), 0, s)
  | fuel + 1, x :: data, s =>
    match poll (x :: data) s with
    | (.pending, s) => (.pending, 0, s)
    | (.failed e, s) => (.failed e, 0, s)
    | (.ready 0, s) => (.failed zero, 0, s)
    | (.ready (n + 1), s) =>
      let (r, k, s) := drain poll zero fuel ((x :: data).drop (n + 1)) s
      (r, n + 1 + k, s)

/-- Polls a read until `need` symbols have come. Also what has come; `ready false` is the end. -/
def fill (poll : ℕ → σ → Poll ε (List α) × σ) : ℕ → ℕ → σ → Poll ε Bool × List α × σ
  | 0, _, s => (.ready true, [], s)
  | _ + 1, 0, s => (.ready true, [], s)
  | fuel + 1, need + 1, s =>
    match poll (need + 1) s with
    | (.pending, s) => (.pending, [], s)
    | (.failed e, s) => (.failed e, [], s)
    | (.ready [], s) => (.ready false, [], s)
    | (.ready (x :: l), s) =>
      let (r, l', s) := fill poll fuel (need - l.length) s
      (r, x :: l ++ l', s)

section

variable (R : List α → σ → Prop) (F : ε → Prop)

/-- What one write of `data` does: `R` holds between what is left of the data and the state. -/
inductive Wrote (data : List α) : Poll ε ℕ × σ → Prop
  | pending {s : σ} (h : R data s) : Wrote data (.pending, s)
  | some {n : ℕ} {s : σ} (pos : 0 < n) (le : n ≤ data.length) (h : R (data.drop n) s) :
    Wrote data (.ready n, s)
  | failed {e : ε} {s : σ} (fails : F e) (h : R data s) : Wrote data (.failed e, s)

inductive Drained (data : List α) : Poll ε Unit × ℕ × σ → Prop
  | pending {k : ℕ} {s : σ} (le : k ≤ data.length) (h : R (data.drop k) s) :
    Drained data (.pending, k, s)
  | all {s : σ} (h : R [] s) : Drained data (.ready (), data.length, s)
  | failed {k : ℕ} {e : ε} {s : σ} (le : k ≤ data.length) (fails : F e) (h : R (data.drop k) s) :
    Drained data (.failed e, k, s)

end

variable {R : List α → σ → Prop} {F : ε → Prop} {poll : List α → σ → Poll ε ℕ × σ} {zero : ε}

lemma Drained.prepend {data : List α} {n : ℕ} (hn : n ≤ data.length) {r : Poll ε Unit × ℕ × σ}
    (h : Drained R F (data.drop n) r) : Drained R F data (r.1, n + r.2.1, r.2.2) := by
  cases h with
  | @pending k _ le h =>
    rw [length_drop] at le
    rw [drop_drop] at h
    exact .pending (show n + k ≤ _ by omega) h
  | all h =>
    rw [length_drop]
    simp only [Nat.add_sub_cancel' hn]
    exact .all h
  | @failed k _ _ le fails h =>
    rw [length_drop] at le
    rw [drop_drop] at h
    exact .failed (show n + k ≤ _ by omega) fails h

lemma drain_spec (hp : ∀ data s, data ≠ [] → R data s → Wrote R F data (poll data s)) :
    ∀ fuel data s, data.length ≤ fuel → R data s → Drained R F data (drain poll zero fuel data s)
  | 0, data, s, hf, hR => by
    obtain rfl := eq_nil_of_length_eq_zero (le_zero.1 hf)
    exact .all hR
  | fuel + 1, [], s, _, hR => .all hR
  | fuel + 1, x :: data, s, hf, hR => by
    have h := hp (x :: data) s (cons_ne_nil _ _) hR
    rw [drain]
    generalize poll (x :: data) s = r at h
    cases h with
    | pending h => exact .pending (zero_le _) h
    | failed fails h => exact .failed (zero_le _) fails h
    | @some n s' pos le h =>
      obtain ⟨n, rfl⟩ := Nat.exists_eq_succ_of_ne_zero (Nat.ne_of_gt pos)
      have hf' : ((x :: data).drop (n + 1)).length ≤ fuel := by
        rw [length_drop]
        omega
      exact (drain_spec hp fuel _ s' hf' h).prepend le

variable {read : ℕ → σ → Poll ε (List α) × σ}

section

variable (P W E : List α → σ → Prop) (F : ε → List α → σ → Prop)

/-- One read, with a relation for each outcome: bytes, nothing yet, the end, and a failure. -/
inductive ReadOnce (room : ℕ) (rest : List α) : Poll ε (List α) × σ → Prop
  | some {x : α} {l rest' : List α} {s : σ} (came : rest = x :: l ++ rest')
    (fits : (x :: l).length ≤ room) (h : P rest' s) : ReadOnce room rest (.ready (x :: l), s)
  | pending {s : σ} (h : W rest s) : ReadOnce room rest (.pending, s)
  | ended {s : σ} (h : E rest s) : ReadOnce room rest (.ready [], s)
  | failed {s : σ} {e : ε} (h : F e rest s) : ReadOnce room rest (.failed e, s)

inductive Filled (need : ℕ) (rest : List α) : Poll ε Bool × List α × σ → Prop
  | full {l rest' : List α} {s : σ} (came : rest = l ++ rest') (len : l.length = need)
    (h : P rest' s) : Filled need rest (.ready true, l, s)
  | pending {l rest' : List α} {s : σ} (came : rest = l ++ rest') (len : l.length < need)
    (h : W rest' s) : Filled need rest (.pending, l, s)
  | ended {l rest' : List α} {s : σ} (came : rest = l ++ rest') (len : l.length < need)
    (h : E rest' s) : Filled need rest (.ready false, l, s)
  | failed {l rest' : List α} {s : σ} {e : ε} (came : rest = l ++ rest') (len : l.length < need)
    (h : F e rest' s) : Filled need rest (.failed e, l, s)

end

variable {P W E : List α → σ → Prop} {F : ε → List α → σ → Prop}

lemma Filled.prepend (l : List α) {need : ℕ} {rest : List α} {r : Poll ε Bool × List α × σ}
    (h : Filled P W E F need rest r) :
    Filled P W E F (l.length + need) (l ++ rest) (r.1, l ++ r.2.1, r.2.2) := by
  cases h with
  | full came len h =>
    refine .full (by rw [came, append_assoc]) ?_ h
    simp only [length_append, len]
  | pending came len h =>
    refine .pending (by rw [came, append_assoc]) ?_ h
    simpa only [length_append, Nat.add_lt_add_iff_left] using len
  | ended came len h =>
    refine .ended (by rw [came, append_assoc]) ?_ h
    simpa only [length_append, Nat.add_lt_add_iff_left] using len
  | failed came len h =>
    refine .failed (by rw [came, append_assoc]) ?_ h
    simpa only [length_append, Nat.add_lt_add_iff_left] using len

lemma fill_spec (hr : ∀ room rest s, 0 < room → P rest s →
      ReadOnce P W E F room rest (read room s)) :
    ∀ fuel need rest s, need ≤ fuel → P rest s → Filled P W E F need rest (fill read fuel need s)
  | 0, need, rest, s, hf, hP => by
    obtain rfl := le_zero.1 hf
    exact .full rfl rfl hP
  | fuel + 1, 0, rest, s, _, hP => .full rfl rfl hP
  | fuel + 1, need + 1, rest, s, hf, hP => by
    have h := hr (need + 1) rest s (succ_pos need) hP
    rw [fill]
    generalize read (need + 1) s = r at h
    cases h with
    | pending h => exact .pending rfl (succ_pos need) h
    | ended h => exact .ended rfl (succ_pos need) h
    | failed h => exact .failed rfl (succ_pos need) h
    | @some x l rest' s' came fits h =>
      rw [length_cons] at fits
      have ih := fill_spec hr fuel (need - l.length) rest' s' (by omega) h
      have hn : need + 1 = (x :: l).length + (need - l.length) := by
        rw [length_cons]
        omega
      rw [came, hn]
      exact ih.prepend (x :: l)

end

namespace Wire

variable {w w₀ : Wire α} {owed data tail : List α} {s : Wire α × List WriteAnswer} {e : ε}

/-- Of what was owed to the wire `w₀`, `data` is left. A closed wire takes nothing. -/
structure Sends (w₀ : Wire α) (owed data : List α) (s : Wire α × List WriteAnswer) : Prop where
  sane : Sane s.2
  moved : ∃ l, s.1 = w₀.put l ∧ (w₀.closed = true → l = []) ∧ owed = l ++ data

lemma Sends.closed_eq (h : Sends w₀ owed data s) : s.1.closed = w₀.closed := by
  obtain ⟨l, hl, -⟩ := h.moved
  rw [hl, closed_put]

lemma Sends.wrote (h : Sends w₀ owed (data ++ tail) s) (hd : data ≠ []) :
    Wrote (fun data => Sends w₀ owed (data ++ tail)) (fun _ => w₀.closed = true) data
      (pollWrite e data s.1 s.2) := by
  obtain ⟨l, hl, hcl, ho⟩ := h.moved
  rcases Bool.eq_false_or_eq_true w₀.closed with hw | hw
  · rw [pollWrite_of_closed (h.closed_eq.trans hw)]
    exact .failed hw h
  obtain ⟨script, hs, hp | ⟨n, hps, hle, hp⟩⟩ :=
    pollWrite_cases (h.closed_eq.trans hw) h.sane hd
  · rw [hp]
    exact .pending ⟨hs, l, hl, hcl, ho⟩
  · rw [hp]
    refine .some hps hle ⟨hs, l ++ data.take n, by rw [hl, put_put], by simp [hw], ?_⟩
    rw [ho, append_assoc, ← append_assoc (data.take n), take_append_drop]

end Wire

end Wires
