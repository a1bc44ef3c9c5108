import Mirage.Proofs.MuxSplit
import Mirage.Proofs.SeenNonces

/-!
# Replayed flights

The set holds the last keys that it has accepted (`Recent`), and a flight presents one key however
it is delivered.
-/

namespace Mirage.Transport

open Words Maps Runs MuxResult
open List hiding Vector

abbrev KeyLog := List (Bytes32 × ℕ)

variable {x : Bytes32 × ℕ}

namespace SeenNonceSet

/-- The set holds the last keys of the log, as many as fit. -/
structure Recent (s : SeenNonceSet) (log : KeyLog) : Prop where
  tidy : s.Tidy s.ttl s.capacity
  nodup : (log.map Prod.fst).Nodup
  order : s.order = ((log.take s.capacity).map Prod.fst).reverse
  lookup : ∀ k t, s.map.lookup k = some t ↔ (k, t) ∈ log.take s.capacity

lemma recent_new (ttl : ℕ) : (new ttl).Recent [] :=
  ⟨tidy_withCapacity, nodup_nil, rfl, fun k t => by simp [new, withCapacity]⟩

variable {s : SeenNonceSet} {log : KeyLog} {k : Bytes32} {now t : ℕ}

namespace Recent

lemma lookup_eq_none (h : s.Recent log) (hk : k ∉ log.map Prod.fst) : s.map.lookup k = none := by
  cases hl : s.map.lookup k with
  | none => rfl
  | some t => exact absurd (mem_map_of_mem (mem_of_mem_take ((h.lookup k t).1 hl))) hk

lemma insert (h : s.Recent log) (hk : k ∉ log.map Prod.fst) :
    ∃ s', s.checkAndInsert k now = (true, s') ∧ s'.Recent ((k, now) :: log) ∧
      s'.ttl = s.ttl ∧ s'.capacity = s.capacity ∧ ∃ keys, s'.order = keys ++ [k] := by
  obtain ⟨s', hs', h', ho, hl⟩ := h.tidy.takes now (h.lookup_eq_none hk)
  obtain ⟨n, hn⟩ : ∃ n, s.capacity = n + 1 := ⟨s.capacity - 1, by have := h.tidy.pos; omega⟩
  have hky : s'.order = ((log.take n).map Prod.fst).reverse ++ [k] := by
    rw [ho, h.order, hn, drop_reverse, ← map_take, take_take, length_reverse, length_map,
      length_take, take_eq_take_iff.2 (show min _ log.length = min n _ by omega)]
  refine ⟨s', hs', ⟨by rwa [h'.ttl, h'.capacity], nodup_cons.2 ⟨hk, h.nodup⟩, ?_, fun k' t' => ?_⟩,
    h'.ttl, h'.capacity, _, hky⟩
  · simp [hky, h'.capacity, hn]
  rw [h'.capacity, hn, take_succ_cons, hl, hky]
  by_cases hk' : k' = k
  · have hnw : (k, t') ∉ log.take n := fun hm => hk (mem_map_of_mem (mem_of_mem_take hm))
    simp [hk', hnw, eq_comm]
  simp only [hk', if_false, mem_append, mem_reverse, mem_cons, not_mem_nil, or_false,
    Prod.mk.injEq, false_and, false_or]
  split_ifs with hin
  · -- The key is in the log only once.
    obtain ⟨⟨_, t⟩, ht, rfl⟩ := mem_map.1 hin
    rw [h.lookup, hn]
    refine ⟨fun hm => ?_, fun hm => (take_sublist_take_left (Nat.le_succ n)).mem hm⟩
    exact inj_on_of_nodup_map h.nodup (mem_of_mem_take hm) (mem_of_mem_take ht) rfl ▸ ht
  · exact iff_of_false nofun fun hm => hin (mem_map_of_mem hm)

end Recent

end SeenNonceSet

inductive Reading
  | head
  | preamble
  | knock
  | opening
  | frame

section

variable (S : MuxSuite) (config : MuxConfig)

/-- What the flight can be taken for: TLS, HTTP, a preamble, a knock that verifies, an opening that
opens under a key, or a VLESS frame. -/
def ReadsAs (flight : Bytes) : Reading → Prop
  | .head => detectKind (flight.take 8) ≠ .opaqueUnknown
  | .preamble => detectWuPreamble (flight.take 256) ≠ none
  | .knock => Knock S config (flight.take 256)
  | .opening => ∃ psk ∈ ssPsks config, headerLen S.toSsSuite psk (flight.take 256) ≠ none
  | .frame => tryVless S config (flight.take 256) = true

/-- The flight can be taken for one thing at most. -/
def OneReading (flight : Bytes) : Prop :=
  ∀ r r', ReadsAs S config flight r → ReadsAs S config flight r' → r = r'

def FreshFrom (c : Connection) (off : ℕ) : Prop :=
  ∃ psk ∈ ssPsks config,
    ss2022PeekVerifyFresh S.toSsSuite psk ((c.flight.take 256).drop off) c.nowSecs = .fresh

/-- The nonce of a knock, or the salt of a fresh opening. -/
def Presents (c : Connection) : Reading → Bytes32 → Prop
  | .knock, k => Knock S config (c.flight.take 256) ∧ k = obfsNonce (c.flight.take 256)
  | .opening, k => FreshFrom S config c 0 ∧ k = saltKey (c.flight.take 256)
  | .preamble, k => ∃ off, detectWuPreamble (c.flight.take 256) = some off ∧
      FreshFrom S config c off ∧ k = saltKey ((c.flight.take 256).drop off)
  | .head, _ => False
  | .frame, _ => False

end

variable {S : MuxSuite} {config : MuxConfig} {deadline m off now : ℕ} {b : Bytes}
  {c c' : Connection} {st : MuxState} {r : Reading} {k k' : Bytes32}

lemma Presents.readsAs (h : Presents S config c r k) : ReadsAs S config c.flight r := by
  cases r with
  | head | frame => exact h.elim
  | knock => exact h.1
  | preamble =>
    obtain ⟨off, ho, -⟩ := h
    simp [ReadsAs, ho]
  | opening =>
    obtain ⟨⟨psk, hm, hf⟩, -⟩ := h
    obtain ⟨len, hl, -⟩ := headerLen_of_fresh hf
    exact ⟨psk, hm, by simpa using hl ▸ Option.some_ne_none len⟩

lemma Presents.not_head (h : Presents S config c r k) : r ≠ .head := by
  rintro rfl
  exact h

lemma Presents.not_frame (h : Presents S config c r k) : r ≠ .frame := by
  rintro rfl
  exact h

lemma Presents.unique (h : Presents S config c r k) (h' : Presents S config c' r k')
    (hs : c'.flight = c.flight) : k' = k := by
  cases r with
  | head | frame => exact h.elim
  | knock | opening => rw [h.2, h'.2, hs]
  | preamble =>
    obtain ⟨off, ho, -, rfl⟩ := h
    obtain ⟨off', ho', -, rfl⟩ := h'
    rw [hs, ho] at ho'
    cases ho'
    rw [hs]

variable {psk : Bytes32} {budget need : ℕ}

lemma fresh_of_take {nowSecs : ℕ} (hm : m ≤ b.length)
    (h : ss2022PeekVerifyFresh S.toSsSuite psk (b.take m) nowSecs = .fresh) :
    ss2022PeekVerifyFresh S.toSsSuite psk b nowSecs = .fresh ∧ saltLen ≤ m := by
  rw [verdict_take hm] at h
  split_ifs at h with hmn
  have hs : saltLen ≤ m := Nat.le_of_add_right_le (Nat.not_lt.1 hmn)
  split at h
  · cases h
  · split_ifs at h
    exact ⟨h, hs⟩

lemma Knock.of_take (hm : m ≤ b.length) (h : Knock S config (b.take m)) :
    Knock S config b ∧ obfsNonce (b.take m) = obfsNonce b := by
  obtain ⟨hon, hl, hv⟩ := h
  rw [length_take, Nat.min_eq_left hm] at hl
  have hn : obfsNonce (b.take m) = obfsNonce b := vec_take (by omega)
  have ht : obfsTag (b.take m) = obfsTag b := by
    rw [obfsTag, obfsTag, drop_take, vec_take (by omega)]
  rw [hn, ht] at hv
  exact ⟨⟨hon, hl.trans hm, hv⟩, hn⟩

lemma serveSs_seenSalts : (serveSs S c off psk st).2.seenSalts = st.seenSalts := by
  rw [serveSs]
  split <;> rfl

/-- A key is taken in, or the set stays and nothing is let in by a key. -/
def Outcome (S : MuxSuite) (config : MuxConfig) (c : Connection) (st : MuxState)
    (res : MuxAnswer × MuxState) : Prop :=
  (∃ r k, Presents S config c r k ∧ st.seenSalts.checkAndInsert k c.now = (true, res.2.seenSalts)) ∨
  res.2.seenSalts = st.seenSalts ∧
    (res.1 = ⟨.unknown, 0⟩ ∨
      res.1 = ⟨.authenticatedVless, vlessClientFrameLen⟩ ∧ ReadsAs S config c.flight .frame)

lemma trySsThenVless_outcome {wuOff : Option ℕ} (hm : m ≤ (c.flight.take 256).length)
    (hr : ∀ k, FreshFrom S config c (wuOff.getD 0) →
      k = saltKey ((c.flight.take 256).drop (wuOff.getD 0)) → Presents S config c r k) :
    Outcome S config c st (trySsThenVless S config c ((c.flight.take 256).take m) wuOff st) := by
  have hvl : Outcome S config c st
      (if wuOff = none ∧ tryVless S config ((c.flight.take 256).take m) = true then
        (⟨.authenticatedVless, vlessClientFrameLen⟩, st) else (⟨.unknown, 0⟩, st)) := by
    split_ifs with hv
    · have hf := hv.2
      rw [tryVless_take hm, Bool.and_eq_true] at hf
      exact .inr ⟨rfl, .inr ⟨rfl, hf.2⟩⟩
    · exact .inr ⟨rfl, .inl rfl⟩
  by_cases hmn : wuOff.getD 0 + ss2022MinPeek ≤ ((c.flight.take 256).take m).length
  · have hl : m - wuOff.getD 0 ≤ ((c.flight.take 256).drop (wuOff.getD 0)).length := by
      rw [length_drop]
      omega
    have hon : winnerOn S config c ((c.flight.take 256).take m) (wuOff.getD 0) st.seenSalts =
        ssWinner S (((c.flight.take 256).drop (wuOff.getD 0)).take (m - wuOff.getD 0)) c.nowSecs
          c.now st.seenSalts (ssPsks config) := by
      rw [winnerOn, if_pos hmn, drop_take]
    rcases ssWinner_cases with hn | ⟨psk, hmm, hfr, seen', hi, hs⟩
    · rw [trySsThenVless_of_none (by rw [hon, hn])]
      exact hvl
    obtain ⟨hw, hsl⟩ := fresh_of_take hl hfr
    rw [saltKey_take hsl] at hi
    rw [trySsThenVless_of_some (by rw [hon, hs])]
    refine .inl ⟨r, _, hr _ ⟨psk, hmm, hw⟩ rfl, ?_⟩
    rw [hi, serveSs_seenSalts, hon, hs]
  · rw [trySsThenVless_of_none (by rw [winnerOn, if_neg hmn])]
    exact hvl

lemma attempts_outcome (hm : m ≤ (c.flight.take 256).length) :
    Outcome S config c st (attempts S config c ((c.flight.take 256).take m) st) := by
  rw [attempts]
  cases hwu : detectWuPreamble ((c.flight.take 256).take m) with
  | some off =>
    rw [detectWuPreamble_take hm, Option.filter_eq_some_iff] at hwu
    exact trySsThenVless_outcome hm (r := .preamble) fun k hf hk => ⟨off, hwu.1, hf, hk⟩
  | none =>
    rcases tryObfs_cases S config ((c.flight.take 256).take m) c.now st.seenSalts with
      hnn | ⟨hkn, seen', hi, hs⟩
    · simp only [hnn]
      exact trySsThenVless_outcome hm (r := .opening) fun k hf hk => ⟨hf, hk⟩
    obtain ⟨hw, hn⟩ := hkn.of_take hm
    simp only [hs]
    rw [hn] at hi
    exact .inl ⟨.knock, _, ⟨hw, rfl⟩, hi⟩

lemma length_peekBuf_le (flight : Bytes) (arrived : ℕ) :
    (peekBuf flight arrived 256).length ≤ (flight.take 256).length := by
  rw [peekBuf_eq_take]
  exact length_take_le' _ _

lemma awaitRest_le : ∀ {fuel i n n' : ℕ}, n ≤ (c.flight.take 256).length →
    awaitRest c budget need fuel i n = some n' → n' ≤ (c.flight.take 256).length
  | 0, _, _, _, hn, h => by
    cases h
    exact hn
  | fuel + 1, i, n, n', hn, h => by
    rw [awaitRest] at h
    split_ifs at h
    · cases hp : c.peek (i + 2) with
      | seen arrived =>
        simp only [hp] at h
        refine awaitRest_le ?_ h
        split_ifs
        · exact length_peekBuf_le c.flight arrived
        · exact hn
      | failed =>
        simp only [hp] at h
        cases h
      | timedOut =>
        simp only [hp] at h
        cases h
        exact hn
    · cases h
      exact hn

lemma awaitRest_none : ∀ {fuel i n : ℕ},
    awaitRest c budget need fuel i n = none → ∃ j, c.peek j = .failed
  | 0, _, _, h => by cases h
  | fuel + 1, i, n, h => by
    rw [awaitRest] at h
    split_ifs at h
    cases hp : c.peek (i + 2) with
    | seen arrived =>
      simp only [hp] at h
      exact awaitRest_none h
    | failed => exact ⟨_, hp⟩
    | timedOut =>
      simp only [hp] at h
      cases h

/-- The peeks fail, decide nothing, decide by the head, or lead to the attempts. -/
theorem accept_cases (S : MuxSuite) (config : MuxConfig) (deadline : ℕ) (c : Connection)
    (st : MuxState) :
    ((∃ i, c.peek i = .failed) ∧ accept S config deadline c st = (⟨.error, 0⟩, st)) ∨
    accept S config deadline c st = (⟨.unknown, 0⟩, st) ∨ (ReadsAs S config c.flight .head ∧
      (accept S config deadline c st = (⟨.tls, 0⟩, st) ∨
        accept S config deadline c st = (⟨.http, 0⟩, st))) ∨ ∃ m ≤ (c.flight.take 256).length,
      accept S config deadline c st = attempts S config c ((c.flight.take 256).take m) st := by
  rw [accept]
  cases hp : c.peek 0 with
  | failed => exact .inl ⟨⟨0, hp⟩, rfl⟩
  | timedOut => exact .inr (.inl rfl)
  | seen arrived =>
    simp only
    have hh (hk : detectKind (peekBuf c.flight arrived 8) ≠ .opaqueUnknown) :
        ReadsAs S config c.flight .head := by
      intro hop
      refine hk ?_
      rw [peekBuf_eq_take, detectKind_take (Nat.min_le_right _ _), hop]
    split_ifs
    · exact .inr (.inl rfl)
    cases hk : detectKind (peekBuf c.flight arrived 8) with
    | tls => exact .inr (.inr (.inl ⟨hh (by simp [hk]), .inl rfl⟩))
    | http => exact .inr (.inr (.inl ⟨hh (by simp [hk]), .inr rfl⟩))
    | opaqueUnknown =>
      cases hp1 : c.peek 1 with
      | failed => exact .inl ⟨⟨1, hp1⟩, rfl⟩
      | timedOut => exact .inr (.inl rfl)
      | seen arrived =>
        simp only
        cases hwu : detectWuPreamble (peekBuf c.flight arrived 256) with
        | none =>
          refine .inr (.inr (.inr ⟨_, Nat.min_le_right arrived _, ?_⟩))
          rw [peekBuf_eq_take]
        | some off =>
          simp only
          cases hr : awaitRest c (min deadline wuShortPeekBudget) (off + ss2022MinPeek)
            (min deadline wuShortPeekBudget / wuShortPeekPoll + 1) 0
            (peekBuf c.flight arrived 256).length with
          | none => exact .inl ⟨awaitRest_none hr, rfl⟩
          | some n =>
            have hn := awaitRest_le (length_peekBuf_le c.flight arrived) hr
            refine .inr (.inr (.inr ⟨n, hn, ?_⟩))
            rw [take_take, Nat.min_eq_left]
            exact hn.trans (length_take_le _ _)

def ss2022ReplayTtl : ℕ := 300 * 1000000000

def joined (before after : SeenNonceSet) : Option Bytes32 :=
  if after.order = before.order then none else after.order.getLast?

structure MuxRun where
  st : MuxState
  log : KeyLog

namespace MuxRun

def start (served : SeenNonceSet) : MuxRun := ⟨⟨.new ss2022ReplayTtl, served⟩, []⟩

def step (S : MuxSuite) (config : MuxConfig) (deadline : ℕ) (run : MuxRun) (c : Connection) :
    MuxRun :=
  let st := (accept S config deadline c run.st).2
  ⟨st, ((joined run.st.seenSalts st.seenSalts).map (·, c.now)).toList ++ run.log⟩

/-- One reading; and a key that comes again was accepted within its lifetime and still fits. -/
structure InWindow (S : MuxSuite) (config : MuxConfig) (run : MuxRun) (c : Connection) : Prop where
  one : OneReading S config c.flight
  window : ∀ r k t, Presents S config c r k → (k, t) ∈ run.log →
    (k, t) ∈ run.log.take SeenNonceSet.defaultSeenNonceCapacity ∧ c.now ≤ t + ss2022ReplayTtl

structure Kept (run : MuxRun) : Prop where
  recent : run.st.seenSalts.Recent run.log
  ttl : run.st.seenSalts.ttl = ss2022ReplayTtl
  capacity : run.st.seenSalts.capacity = SeenNonceSet.defaultSeenNonceCapacity

variable {run : MuxRun}

lemma Kept.refused (h : run.Kept) (hc : InWindow S config run c) {t : ℕ}
    (hp : Presents S config c r k) (hk : (k, t) ∈ run.log) :
    run.st.seenSalts.checkAndInsert k c.now = (false, run.st.seenSalts) := by
  obtain ⟨hm, ht⟩ := hc.window r k t hp hk
  exact SeenNonceSet.refused h.recent.tidy ((h.recent.lookup _ t).2 (by rwa [h.capacity]))
    (by rwa [h.ttl])

lemma Kept.notMem_log (h : run.Kept) (hc : InWindow S config run c)
    (hp : Presents S config c r k) {s' : SeenNonceSet}
    (hi : run.st.seenSalts.checkAndInsert k c.now = (true, s')) : k ∉ run.log.map Prod.fst := by
  intro hm
  obtain ⟨⟨_, t⟩, hk, rfl⟩ := mem_map.1 hm
  rw [h.refused hc hp hk] at hi
  cases hi

lemma Kept.step_of_insert (h : run.Kept) (hc : InWindow S config run c)
    (hp : Presents S config c r k)
    (hi : run.st.seenSalts.checkAndInsert k c.now =
      (true, (accept S config deadline c run.st).2.seenSalts)) :
    (step S config deadline run c).log = (k, c.now) :: run.log ∧
      (step S config deadline run c).Kept := by
  have hn := h.notMem_log hc hp hi
  obtain ⟨s', hi', hr, ht, hcp, keys, ho⟩ := h.recent.insert hn
  rw [hi] at hi'
  obtain rfl := (Prod.mk.inj hi').2
  have hne : (accept S config deadline c run.st).2.seenSalts.order ≠ run.st.seenSalts.order := by
    intro heq
    refine hn ?_
    have hm : k ∈ run.st.seenSalts.order := by
      rw [← heq, ho]
      simp
    rw [h.recent.order, mem_reverse] at hm
    exact map_subset _ (take_subset _ _) hm
  have hl : (step S config deadline run c).log = (k, c.now) :: run.log := by
    rw [ho] at hne
    simp [step, joined, ho, hne]
  exact ⟨hl, hl ▸ hr, ht.trans h.ttl, hcp.trans h.capacity⟩

lemma step_log_of_eq (h : (accept S config deadline c run.st).2.seenSalts = run.st.seenSalts) :
    (step S config deadline run c).log = run.log := by
  simp [step, joined, h]

lemma mem_log_run : ∀ {run : MuxRun} (cs : List Connection),
    x ∈ run.log → x ∈ (Runs.run (step S config deadline) run cs).log
  | _, [], h => h
  | _, _ :: cs, h => mem_log_run cs (mem_append_right _ h)

lemma accept_seenSalts : (accept S config deadline c st).2.seenSalts = st.seenSalts ∨
    ∃ r k, Presents S config c r k ∧ st.seenSalts.checkAndInsert k c.now =
      (true, (accept S config deadline c st).2.seenSalts) := by
  rcases accept_cases S config deadline c st with
    ⟨-, h⟩ | h | ⟨-, h | h⟩ | ⟨m, hm, h⟩
  · exact .inl (by rw [h])
  · exact .inl (by rw [h])
  · exact .inl (by rw [h])
  · exact .inl (by rw [h])
  rw [h]
  rcases attempts_outcome hm with hi | ho
  · exact .inr hi
  · exact .inl ho.1

lemma Kept.step (h : run.Kept) (hc : InWindow S config run c) :
    (step S config deadline run c).Kept := by
  rcases accept_seenSalts with heq | ⟨r, k, hp, hi⟩
  · refine ⟨?_, ?_, ?_⟩
    · rw [step_log_of_eq heq]
      exact heq ▸ h.recent
    · exact (congrArg _ heq).trans h.ttl
    · exact (congrArg _ heq).trans h.capacity
  · exact (h.step_of_insert hc hp hi).2

lemma inserted_of_authenticated (h : (accept S config deadline c st).1.result.variant = .obfsTcp ∨
      (accept S config deadline c st).1.result.variant = .shadowsocks) :
    ∃ r k, Presents S config c r k ∧ st.seenSalts.checkAndInsert k c.now =
      (true, (accept S config deadline c st).2.seenSalts) := by
  rcases accept_cases S config deadline c st with
    ⟨-, ha⟩ | ha | ⟨-, ha | ha⟩ | ⟨m, hm, ha⟩
  · simp [ha, variant] at h
  · simp [ha, variant] at h
  · simp [ha, variant] at h
  · simp [ha, variant] at h
  rw [ha] at h ⊢
  rcases attempts_outcome hm with hi | ⟨-, ho | ⟨ho, -⟩⟩
  · exact hi
  · simp [ho, variant] at h
  · simp [ho, variant] at h

lemma accept_of_refused (one : OneReading S config c.flight)
    (hr : ReadsAs S config c.flight r) (hhd : r ≠ .head) (hfr : r ≠ .frame)
    (hrf : ∀ r k, Presents S config c r k → (st.seenSalts.checkAndInsert k c.now).1 = false) :
    (accept S config deadline c st).1 = ⟨.unknown, 0⟩ ∨
      (∃ i, c.peek i = .failed) ∧ (accept S config deadline c st).1 = ⟨.error, 0⟩ := by
  rcases accept_cases S config deadline c st with
    ⟨hfl, h⟩ | h | ⟨hh, -⟩ | ⟨m, hm, h⟩
  · exact .inr ⟨hfl, by rw [h]⟩
  · exact .inl (by rw [h])
  · exact absurd (one r .head hr hh) hhd
  rw [h]
  rcases attempts_outcome hm with ⟨r', k, hp, hi⟩ | ⟨-, ho | ⟨-, hf⟩⟩
  · have := hrf r' k hp
    rw [hi] at this
    cases this
  · exact .inl ho
  · exact absurd (one r .frame hr hf) hfr

def answerAfter (S : MuxSuite) (config : MuxConfig) (deadline : ℕ) (served : SeenNonceSet)
    (cs : List Connection) (c : Connection) : MuxAnswer :=
  (accept S config deadline c (Runs.run (step S config deadline) (start served) cs).st).1

end MuxRun

open MuxRun

/-- If no key comes again too late, a flight that was let in is taken for nothing ever after. -/
theorem replay_unknown {served : SeenNonceSet} {before between : List Connection}
    (h : Along (MuxRun.step S config deadline) (InWindow S config) (start served)
      (before ++ c :: between ++ [c']))
    (hauth : (answerAfter S config deadline served before c).result.variant = .obfsTcp ∨
      (answerAfter S config deadline served before c).result.variant = .shadowsocks)
    (hsame : c'.flight = c.flight) :
    answerAfter S config deadline served (before ++ c :: between) c' = ⟨.unknown, 0⟩ ∨
      (∃ i, c'.peek i = .failed) ∧
        answerAfter S config deadline served (before ++ c :: between) c' = ⟨.error, 0⟩ := by
  rw [along_append] at h
  obtain ⟨hi, hl, -⟩ := h
  have hkp {cs : List Connection}
      (hcs : Along (MuxRun.step S config deadline) (InWindow S config) (start served) cs) :
      (Runs.run (MuxRun.step S config deadline) (start served) cs).Kept :=
    inv_run (fun _ _ hk hc => hk.step hc) _ cs ⟨SeenNonceSet.recent_new _, rfl, rfl⟩ hcs
  obtain ⟨hb, hc, -⟩ := along_append.1 hi
  -- The key that `c` presents is in the log from then on.
  obtain ⟨r, k, hp, hin⟩ := inserted_of_authenticated hauth
  have hlg := ((hkp hb).step_of_insert hc hp hin).1
  have hm : (k, c.now) ∈
      (Runs.run (MuxRun.step S config deadline) (start served) (before ++ c :: between)).log := by
    rw [run_append, run_cons]
    refine mem_log_run between ?_
    rw [hlg]
    exact List.mem_cons_self
  have hr : ReadsAs S config c'.flight r := hsame ▸ hp.readsAs
  refine accept_of_refused hl.one hr hp.not_head hp.not_frame fun r' k' hp' => ?_
  -- It is the only one that `c'` can present.
  obtain rfl := hl.one r r' hr hp'.readsAs
  obtain rfl := hp.unique hp' hsame
  rw [(hkp hi).refused hl hp' hm]

def atOnce (flight : Bytes) (now : ℕ) : Connection where
  flight := flight
  peek _ := .seen flight.length
  elapsed _ := 0
  nowSecs := 0
  now := now
  authSecs := 0
  authNow := now

lemma oneReading_sevens : OneReading plainSuite obfsConfig sevens := by
  have hk {r : Reading} (h : ReadsAs plainSuite obfsConfig sevens r) : r = .knock := by
    cases r with
    | head | preamble => exact absurd (by decide +kernel) h
    | knock => rfl
    | opening =>
      obtain ⟨psk, hm, -⟩ := h
      exact absurd hm not_mem_nil
    | frame => exact absurd (show tryVless plainSuite obfsConfig _ = true from h) nofun
  intro r r' h h'
  rw [hk h, hk h']

/-- A knock that comes again after 100 seconds. -/
theorem replay_unknown_knock : answerAfter plainSuite obfsConfig 5000 (.new 0) [atOnce sevens 0]
      (atOnce sevens 100000000000) = ⟨.unknown, 0⟩ := by
  have hl : (MuxRun.step plainSuite obfsConfig 5000 (start (.new 0)) (atOnce sevens 0)).log =
      [(vec 32 sevens, 0)] := by decide +kernel
  have hr : Along (MuxRun.step plainSuite obfsConfig 5000) (InWindow plainSuite obfsConfig)
      (start (.new 0)) ([] ++ atOnce sevens 0 :: [] ++ [atOnce sevens 100000000000]) := by
    refine ⟨⟨oneReading_sevens, fun r k t _ hk => absurd hk List.not_mem_nil⟩,
      ⟨oneReading_sevens, fun r k t _ hk => ?_⟩, trivial⟩
    rw [hl] at hk ⊢
    rw [List.mem_singleton] at hk
    cases hk
    exact ⟨List.mem_cons_self, by decide⟩
  rcases replay_unknown hr (.inl (by decide +kernel)) rfl with h | ⟨⟨i, hi⟩, -⟩
  · exact h
  · cases hi

/-- After 301 seconds the same knock is let in again. -/
theorem replay_authenticated :
    answerAfter plainSuite obfsConfig 5000 (.new 0) [] (atOnce sevens 0) =
        ⟨.authenticatedObfsTcp (vec 32 sevens) (vec 32 sevens), 64⟩ ∧
      answerAfter plainSuite obfsConfig 5000 (.new 0) [atOnce sevens 0]
          (atOnce sevens 301000000000) =
        ⟨.authenticatedObfsTcp (vec 32 sevens) (vec 32 sevens), 64⟩ := by
  decide +kernel

end Mirage.Transport
