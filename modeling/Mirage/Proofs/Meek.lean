import Mathlib.Algebra.BigOperators.Fin
import Mirage.Lib.Flows
import Mirage.Lib.Runs
import Mirage.Transport.Meek

/-!
# What meek carries

While every body is short enough for the peer, each direction is a stop-and-wait flow (`step_flow`).
-/

namespace Mirage.Transport

open Words Runs Flows Flows.Flow Posting MeekStream
open List hiding Vector

namespace MeekStream

variable (m : MeekStream)

def unread : Bytes := m.inboundBuf ++ m.inboundRx.flatten

def arrived : Bytes := m.delivered ++ m.unread

lemma arrived_pollRead (n : ℕ) : (m.pollRead n).2.arrived = m.arrived := by
  unfold pollRead arrived unread
  split_ifs with hb
  · simp only [append_assoc]
    rw [← append_assoc (take n _), take_append_drop]
  split
  · rfl
  rename_i hrx
  rw [not_not.1 hb, hrx]
  simp only [append_assoc, flatten_cons, nil_append]
  rw [← append_assoc (take n _), take_append_drop]

lemma pollRead_outbound (n : ℕ) :
    (m.pollRead n).2.written = m.written ∧ (m.pollRead n).2.outbound = m.outbound := by
  unfold pollRead
  split_ifs
  · exact ⟨rfl, rfl⟩
  · split <;> exact ⟨rfl, rfl⟩

variable (body : Bytes)

@[simp]
lemma arrived_push : (m.push body).arrived = m.arrived ++ body := by
  unfold push arrived unread
  split_ifs with hb
  · simp [hb]
  · simp

@[simp]
lemma written_push : (m.push body).written = m.written := by
  unfold push
  split_ifs <;> rfl

@[simp]
lemma queued_push : (m.push body).queued = m.queued := by
  unfold push
  split_ifs <;> rfl

end MeekStream

namespace Meek

variable {t : Meek} {e : MeekEvent}

def onWire (t : Meek) : Side → Bytes
  | .client => match t.turn with
    | .posted first body => payload first body
    | _ => []
  | .bridge => match t.turn with
    | .answered body => body
    | _ => []

/-- No body is longer than the peer takes, and the bridge has room for it. -/
def Fits (t : Meek) : MeekEvent → Prop
  | .post w => t.posts w = true →
      (t.pendingPrefix ++ (t.stream .client).queued).length ≤ meekMaxRequestBody
  | .serve => t.inboundBuffered + (t.onWire .client).length ≤ meekMaxSessionBuffer
  | .respond w => t.responds w = true → (t.stream .bridge).queued.length ≤ meekMaxRequestBody
  | _ => True

instance (t : Meek) : DecidablePred (Fits t) := fun _ => by
  unfold Fits
  split <;> infer_instance

/-- The body under way is short enough for its peer. -/
def Sound (t : Meek) : Prop :=
  match t.turn with
  | .posted first body => body.length ≤ meekMaxRequestBody ∧
      (first = true → meekAuthFrameLen ≤ body.length)
  | .answered body => body.length ≤ meekMaxRequestBody
  | .over => False
  | _ => True

def sent (t : Meek) : Side → ℕ
  | .client => t.rounds + match t.turn with
    | .posted _ _ | .serving | .answered _ => 1
    | _ => 0
  | .bridge => t.rounds + match t.turn with
    | .answered _ => 1
    | _ => 0

def received (t : Meek) : Side → ℕ
  | .client => t.rounds + match t.turn with
    | .serving | .answered _ => 1
    | _ => 0
  | .bridge => t.rounds

def flow (t : Meek) (s : Side) : Flow UInt8 where
  written := (t.stream s).written
  queued := (t.stream s).queued
  wire := t.onWire s
  arrived := (t.stream s.other).arrived
  sent := t.sent s
  received := t.received s

lemma step_set {m : MeekStream} {s : Side} {buf : Bytes} (h : m.arrived = (t.stream s).arrived)
    (hw : m.written = (t.stream s).written ++ buf) (hq : m.queued = (t.stream s).queued ++ buf)
    (s' : Side) : Step (t.flow s') ((t.set s m).flow s') := by
  have hs : (t.set s m).flow s' =
      if s' = s then { t.flow s' with
        written := (t.flow s').written ++ buf, queued := (t.flow s').queued ++ buf }
      else t.flow s' := by
    cases s <;> cases s' <;>
      simp [flow, set, Side.other, h, hw, hq, onWire, sent, received]
  rw [hs]
  split_ifs
  · exact .write _ buf
  · exact .stay _

lemma posts_turn {w : Wake} (h : t.posts w = true) :
    (∃ frame, t.turn = .starting frame) ∨ t.turn = .idle := by
  unfold posts at h
  split at h
  · rename_i frame ht
    exact .inl ⟨frame, ht⟩
  · rename_i ht
    exact .inr ht
  · cases h

/-- The session stays sound, and both directions take a step of their flows, or none. -/
def Carries (t t' : Meek) : Prop := t'.Sound ∧ ∀ s, Step (t.flow s) (t'.flow s)

lemma Carries.refl (h : t.Sound) : Carries t t := ⟨h, fun _ => .stay _⟩

lemma read_flow (h : t.Sound) (s : Side) (n : ℕ) : Carries t (t.step (.read s n)) := by
  have hrd := step_set ((t.stream s).arrived_pollRead n)
    (((t.stream s).pollRead_outbound n).1.trans (append_nil _).symm)
    ((congrArg flatten ((t.stream s).pollRead_outbound n).2).trans (append_nil _).symm)
  unfold step
  dsimp only
  split_ifs
  · cases s with
    | client | bridge => exact ⟨h, hrd⟩
  · exact .refl h

/-- All that the client has queued goes into one body. -/
lemma post_flow {w : Wake} (h : t.Sound) (hf : Fits t (.post w)) :
    Carries t (t.step (.post w)) := by
  unfold step post
  dsimp only
  split_ifs with hp
  · have hft := hf hp
    rcases posts_turn hp with ⟨frame, ht⟩ | ht
    all_goals
      refine ⟨by simpa [Sound, held, ht, pendingPrefix] using hft, fun s => ?_⟩
      cases s
      all_goals
        simp [flow, onWire, sent, received, set, Side.other, held, pendingPrefix, payload, ht]
      · exact .collect _ rfl
      · exact .stay _
  · exact .refl h

lemma serve_flow (h : t.Sound) (hf : Fits t .serve) : Carries t (t.step .serve) := by
  unfold step serve
  dsimp only
  split
  · rename_i first body ht
    obtain ⟨hb, hfr⟩ : body.length ≤ meekMaxRequestBody ∧
      (first = true → meekAuthFrameLen ≤ body.length) := by simpa [Sound, ht] using h
    have hrm : t.inboundBuffered + (payload first body).length ≤ meekMaxSessionBuffer := by
      simpa [Fits, onWire, ht] using hf
    rw [if_neg hb.not_gt, if_neg (by simpa using hfr), if_neg (fun h => hrm.not_gt h.2)]
    refine ⟨trivial, fun s => ?_⟩
    cases s
    all_goals simp [flow, onWire, sent, received, set, Side.other, ht]
    · exact .take _ rfl
    · exact .stay _
  · exact .refl h

lemma respond_flow {w : Wake} (h : t.Sound) (hf : Fits t (.respond w)) :
    Carries t (t.step (.respond w)) := by
  unfold step respond
  dsimp only
  split_ifs with hr
  · have ht : t.turn = .serving := by simpa using (Bool.and_eq_true_iff.1 hr).1
    refine ⟨hf hr, fun s => ?_⟩
    cases s
    all_goals simp [flow, onWire, sent, received, set, Side.other, ht]
    · exact .stay _
    · exact .collect _ rfl
  · exact .refl h

lemma receive_flow (h : t.Sound) : Carries t (t.step .receive) := by
  unfold step receive
  dsimp only
  split
  · rename_i body ht
    have hb : body.length ≤ meekMaxRequestBody := by simpa [Sound, ht] using h
    rw [if_neg hb.not_gt]
    refine ⟨trivial, fun s => ?_⟩
    cases s
    all_goals simp [flow, onWire, sent, received, set, Side.other, ht]
    · exact .stay _
    · exact .take _ rfl
  · exact .refl h

lemma step_flow (h : t.Sound) (hf : Fits t e) : Carries t (t.step e) := by
  cases e with
  | write s buf =>
    unfold step
    dsimp only
    split_ifs
    · exact ⟨h, step_set rfl rfl (by simp [MeekStream.pollWrite, MeekStream.queued])⟩
    · exact .refl h
  | flush s =>
    unfold step
    dsimp only
    split_ifs
    · exact ⟨h, step_set rfl (append_nil _).symm (append_nil _).symm⟩
    · exact .refl h
  | read s n => exact read_flow h s n
  | post w => exact post_flow h hf
  | serve => exact serve_flow h hf
  | respond w => exact respond_flow h hf
  | receive => exact receive_flow h

lemma run_flow : ∀ {t : Meek} {es : List MeekEvent}, t.Sound → Along step Fits t es →
    (run step t es).Sound ∧ ∀ s, Relation.ReflTransGen Step (t.flow s) ((run step t es).flow s)
  | t, [], h, _ => ⟨h, fun _ => .refl⟩
  | t, e :: es, h, ha => by
    obtain ⟨hs, hst⟩ := step_flow h ha.1
    obtain ⟨he, hr⟩ := run_flow hs ha.2
    exact ⟨he, fun s => .head (hst s) (hr s)⟩

def round : List MeekEvent := [.post .flush, .post .timer, .serve, .respond .timer, .receive]

def phase (t : Meek) : ℕ :=
  match t.turn with
  | .posted _ _ => 1
  | .serving => 2
  | .answered _ => 3
  | _ => 0

lemma post_phase (w : Wake) : (t.step (.post w)).rounds = t.rounds ∧
    (1 ≤ t.phase ∨ t.posts w = true → 1 ≤ (t.step (.post w)).phase) ∧
    (t.posts w = false → t.step (.post w) = t) := by
  unfold step post
  dsimp only
  split_ifs with hp
  · simp [phase, set, hp]
  · simp [hp]

lemma serve_phase (h : 1 ≤ t.phase) (hs : (t.step .serve).Sound) :
    (t.step .serve).rounds = t.rounds ∧ 2 ≤ (t.step .serve).phase := by
  unfold step serve at hs ⊢
  cases ht : t.turn with
  | posted first body =>
    simp only [ht] at hs ⊢
    split_ifs at hs ⊢ <;> simp_all [Sound, phase, set]
  | starting | idle | serving | answered | «over» => simp_all [phase]

lemma respond_phase (h : 2 ≤ t.phase) :
    (t.step (.respond .timer)).rounds = t.rounds ∧ 3 ≤ (t.step (.respond .timer)).phase := by
  unfold step respond responds
  cases ht : t.turn with
  | serving => simp [ht, phase, set, woken]
  | starting | idle | posted | answered | «over» => simp_all [phase]

lemma receive_phase (h : 3 ≤ t.phase) (hs : (t.step .receive).Sound) :
    (t.step .receive).rounds = t.rounds + 1 := by
  unfold step receive at hs ⊢
  unfold phase at h
  cases ht : t.turn with
  | answered body =>
    simp only [ht] at hs ⊢
    split_ifs at hs ⊢ <;> simp_all [Sound]
  | starting | idle | posted | serving | «over» => simp_all

lemma posts_begun (h : t.Sound) (hb : ∀ f, t.turn = .starting f → 0 < (t.stream .client).flushes) :
    1 ≤ t.phase ∨ t.posts .flush = true ∨ t.posts .timer = true := by
  unfold phase posts
  cases ht : t.turn with
  | starting f => simp [woken, hb f ht]
  | «over» => simp [Sound, ht] at h
  | idle | posted | serving | answered => simp [woken]

lemma run_round (h : t.Sound) (hb : ∀ f, t.turn = .starting f → 0 < (t.stream .client).flushes)
    (ha : Along step Fits t round) : (run step t round).rounds = t.rounds + 1 := by
  obtain ⟨h₁, h₂, h₃, h₄, h₅, -⟩ := ha
  have hs₁ := (step_flow h h₁).1
  have hs₂ := (step_flow hs₁ h₂).1
  have hs₃ := (step_flow hs₂ h₃).1
  have hs₄ := (step_flow hs₃ h₄).1
  have hs₅ := (step_flow hs₄ h₅).1
  obtain ⟨hr₁, hp₁, hn⟩ := post_phase .flush
  obtain ⟨hr₂, hp₂, -⟩ := post_phase .timer
  have hp : 1 ≤ ((t.step (.post .flush)).step (.post .timer)).phase := by
    refine hp₂ ?_
    by_cases hf : t.posts .flush = true
    · exact .inl (hp₁ (.inr hf))
    · rw [hn (by simpa using hf)]
      simpa [hf] using posts_begun h hb
  obtain ⟨hr₃, hp₃⟩ := serve_phase hp hs₃
  obtain ⟨hr₄, hp₄⟩ := respond_phase hp₃
  have hr₅ := receive_phase hp₄ hs₅
  rw [← hr₁, ← hr₂, ← hr₃, ← hr₄]
  exact hr₅

variable (frame : Vector UInt8 meekAuthFrameLen)

lemma start_flow (s : Side) : ((start frame).flow s).Sound := by
  cases s <;> exact ⟨rfl, fun _ => rfl, le_rfl⟩

lemma Sound.not_over (h : t.Sound) : t.turn ≠ .over := by
  intro ht
  simp [Sound, ht] at h

lemma sent_le (t : Meek) (s : Side) : t.sent s ≤ t.rounds + 1 := by
  cases s <;> simp only [sent] <;> split <;> omega

lemma rounds_le_received (t : Meek) (s : Side) : t.rounds ≤ t.received s := by
  cases s with
  | client => exact Nat.le_add_right _ _
  | bridge => exact le_rfl

/-- The peer reads what was written in order, all of it two exchanges later. -/
theorem meek_delivers {frame : Vector UInt8 meekAuthFrameLen} {before after : List MeekEvent}
    {t t' : Meek} (hfits : Along step Fits (start frame) (before ++ after))
    (ht : run step (start frame) before = t) (ht' : run step t after = t') (s : Side) :
    t'.turn ≠ .over ∧ (t'.stream s.other).delivered <+: (t'.stream s).written ∧
      (t.rounds + 2 ≤ t'.rounds → (t'.stream s.other).unread = [] →
        (t.stream s).written <+: (t'.stream s.other).delivered) ∧
      ((∀ f, t'.turn = .starting f → 0 < (t'.stream .client).flushes) →
        Along step Fits t' round → (run step t' round).rounds = t'.rounds + 1) := by
  obtain ⟨hb, ha⟩ := along_append.1 hfits
  rw [ht] at ha
  obtain ⟨hs, hf⟩ := run_flow (t := start frame) trivial hb
  rw [ht] at hs hf
  obtain ⟨hs', hf'⟩ := run_flow hs ha
  rw [ht'] at hs' hf'
  obtain ⟨hsn, hc⟩ := carried (carried (start_flow frame s) (hf s)).1 (hf' s)
  refine ⟨hs'.not_over, ?_, fun hr hu => ?_, run_round hs'⟩
  · have hw : (t'.stream s).written = _ := hsn.written
    rw [hw]
    simp only [flow, MeekStream.arrived, List.append_assoc]
    exact List.prefix_append _ _
  · have hlt : t.sent s < t'.received s := by
      have := t.sent_le s
      have := t'.rounds_le_received s
      omega
    have har : (t.stream s).written <+: (t'.stream s.other).arrived := hc.received hlt
    rwa [MeekStream.arrived, hu, List.append_nil] at har

theorem meek_delivers_hello : [1, 2, 3] <+: ((run step
      (run step (start (.replicate _ 0)) [.write .client [1, 2, 3], .flush .client])
      (round ++ round ++ [.read .bridge 9])).stream .bridge).delivered := by
  have hf : Along step Fits (start (.replicate _ 0)) ([.write .client [1, 2, 3],
      .flush .client] ++ (round ++ round ++ [.read .bridge 9])) := by decide +kernel
  exact (meek_delivers hf rfl rfl .client).2.2.1 (by decide +kernel) (by decide +kernel)

lemma turn_of_long_write {buf : Bytes} (h : meekMaxRequestBody < buf.length) :
    (run step (start frame) [.write .client buf, .flush .client, .post .flush, .serve]).turn =
      .over := by
  have hl : meekMaxRequestBody < (frame.toList ++ [buf].flatten).length := by
    rw [length_append, flatten_singleton]
    exact Nat.lt_add_left _ h
  exact congrArg Meek.turn (if_pos hl)

/-- The session does not live on in every run: the client writes more than a request may hold. -/
theorem long_write_ends : ¬ ∀ events, (run step (start (.replicate _ 0)) events).turn ≠ .over := by
  intro h
  refine h [.write .client (List.replicate 65537 0), .flush .client, .post .flush, .serve] ?_
  refine turn_of_long_write _ ?_
  rw [List.length_replicate]
  decide

end Meek

/-! ## The cap on what a session buffers -/

def Posting.pending : Posting → ℕ
  | .checked len => len
  | _ => 0

def Posting.unsent : Posting → ℕ
  | .added len => len
  | _ => 0

namespace SessionEntry

variable {n : ℕ} {s : SessionEntry n} {e : EntryStep n} {conn : Fin n → Posting} {i : Fin n}
  {q : Posting}

def total (w : Posting → ℕ) (conn : Fin n → Posting) : ℕ := ∑ i, w (conn i)

lemma total_update (w : Posting → ℕ) (p : Posting) (h : conn i = q) :
    total w (Function.update conn i p) + w q = total w conn + w p := by
  have hw : total w (Function.update conn i p) = ∑ j, Function.update (w ∘ conn) i (w p) j := by
    rw [← Function.comp_update]
    rfl
  have hi := Finset.mem_univ i
  rw [hw, Finset.sum_update_of_mem hi, Finset.sdiff_singleton_eq_erase, total, ← h,
    ← Finset.add_sum_erase _ (fun j => w (conn j)) hi]
  simp only [Function.comp_apply]
  omega

/-- A body that passes the check fits beside all that have passed it, and the reader stays. -/
def Fits (s : SessionEntry n) : EntryStep n → Prop
  | .load _ len => s.overCap len = false →
      s.inboundBuffered + total pending s.conn + len ≤ meekMaxSessionBuffer
  | .dropReader => False
  | _ => True

instance (s : SessionEntry n) (e : EntryStep n) : Decidable (Fits s e) := by
  cases e <;> delta Fits <;> infer_instance

/-- Nothing is under way in the session. -/
def AtRest (s : SessionEntry n) : Prop :=
  s.received = none ∧ ∀ i, s.conn i = .idle ∨ s.conn i = .closed

/-- The counter is what the channel holds and what is about to be added. -/
structure Counted (s : SessionEntry n) : Prop where
  reading : s.reading = true
  sum : s.inboundBuffered =
    s.inbound.sum + total unsent s.conn + s.received.getD 0
  room : s.inboundBuffered + total pending s.conn ≤ meekMaxSessionBuffer

lemma Counted.step (h : Counted s) (hf : Fits s e) : Counted (s.step e) := by
  obtain ⟨hr, hs, hm⟩ := h
  have hmax : meekMaxSessionBuffer < 2 ^ 64 := by decide
  -- A step of a connection changes what one posting adds to the two sums.
  have moves {i q} (hq : s.conn i = q) (p : Posting) :=
    And.intro (total_update pending p hq) (total_update unsent p hq)
  unfold SessionEntry.step set
  rcases e with ⟨i, len⟩ | i | i | _ | _ | _ <;> dsimp only
  · split_ifs with hi ho
    · have hp := moves hi.1 .closed
      simp only [pending, unsent] at hp
      refine ⟨hr, ?_, ?_⟩ <;> dsimp only <;> omega
    · have hp := moves hi.1 (.checked len)
      simp only [pending, unsent] at hp
      have := hf (by simpa using ho)
      refine ⟨hr, ?_, ?_⟩ <;> dsimp only <;> omega
    · exact ⟨hr, hs, hm⟩
  · split
    next len hi =>
      have hp := moves hi (.added len)
      simp only [pending, unsent] at hp
      refine ⟨hr, ?_, ?_⟩ <;> dsimp only <;> omega
    next => exact ⟨hr, hs, hm⟩
  · split
    next len hi =>
      have hp := moves hi .idle
      simp only [pending, unsent] at hp
      rw [if_pos hr]
      refine ⟨hr, ?_, ?_⟩ <;> simp only [List.sum_append, List.sum_singleton] <;> omega
    next => exact ⟨hr, hs, hm⟩
  · split
    next len rest hn hi =>
      simp only [hn, hi, List.sum_cons, Option.getD_none] at hs
      refine ⟨hr, ?_, ?_⟩ <;> simp only [Option.getD_some] <;> omega
    next => exact ⟨hr, hs, hm⟩
  · split
    next len hi =>
      simp only [hi, Option.getD_some] at hs
      refine ⟨hr, ?_, ?_⟩ <;> simp only [Option.getD_none] <;> omega
    next => exact ⟨hr, hs, hm⟩
  · exact hf.elim

lemma Counted.new : Counted (new : SessionEntry n) := by
  constructor <;> simp [SessionEntry.new, total, pending, unsent]

/-- If every body that passes the check fits beside those not yet added, the channel is within the
cap. -/
theorem inbound_within_cap {steps : List (EntryStep n)} (h : Along step Fits new steps)
    (hs : run step new steps = s) : s.inbound.sum ≤ meekMaxSessionBuffer ∧
      (AtRest s → s.inboundBuffered = s.inbound.sum) := by
  have hc : Counted s := hs ▸ inv_run (fun _ _ => Counted.step) _ _ Counted.new h
  refine ⟨by have := hc.sum; have := hc.room; omega, fun ⟨hr, hi⟩ => ?_⟩
  have hu : total unsent s.conn = 0 :=
    Finset.sum_eq_zero fun i _ => by rcases hi i with hi | hi <;> rw [hi] <;> rfl
  rw [hc.sum, hu, hr]
  rfl

def postAll (i : Fin 2) (k : ℕ) : List (EntryStep 2) :=
  (List.replicate k [.load i meekMaxRequestBody, .fetchAdd i, .send i]).flatten

theorem inbound_within_cap_turns :
    (run step new (postAll 0 9 ++ postAll 1 7 ++ [.recv, .fetchUpdate])).inboundBuffered =
      15 * meekMaxRequestBody := by
  rw [(inbound_within_cap (by decide +kernel) rfl).2 ⟨by decide +kernel, by decide +kernel⟩]
  decide +kernel

/-- Both connections read the counter before either has added its body to it. -/
theorem inbound_over_cap : meekMaxSessionBuffer < (run step new (postAll 0 15 ++
    [.load 0 meekMaxRequestBody, .load 1 meekMaxRequestBody, .fetchAdd 0, .fetchAdd 1, .send 0,
      .send 1])).inbound.sum := by
  decide +kernel

end SessionEntry

end Mirage.Transport
