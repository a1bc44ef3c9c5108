import Mirage.Bridge.Cohort

/-!
# What the cohort is told

The monitor forgets a reading that falls while it may not publish (`NoFall`), and the loop of a peer
the frame whose write fails.
-/

namespace Mirage.Cohort

open Runs Words GossipStep
open List hiding Vector

namespace DistressMonitor

variable {config : DistressMonitorConfig}

/-- While nothing can be published after an event of distress, the reading stays up. -/
def NoFall (config : DistressMonitorConfig) (m : DistressMonitor) (t : Tick) : Prop :=
  m.throttled config t.now → m.lastPublishAt.isSome → config.publishThreshold ≤ t.severity
deriving Decidable

/-- The time of the last event of distress is kept exactly until a recovery is published. -/
structure Inv (config : DistressMonitorConfig) (m : DistressMonitor) : Prop where
  word : m.distressed config = m.lastPublishAt.isSome
  high : m.lastPublishAt.isSome → config.publishThreshold ≤ m.lastSeverity

lemma inv_tick (m : DistressMonitor) (t : Tick) (h : m.Inv config) (ht : m.NoFall config t) :
    (m.tick config t).Inv config ∧ (m.throttled config t.now = false →
      (m.tick config t).distressed config = decide (config.publishThreshold ≤ t.severity)) := by
  obtain ⟨hw, hh⟩ := h
  rw [tick]
  split
  · refine ⟨⟨?_, ?_⟩, fun _ => ?_⟩ <;> by_cases hup : config.publishThreshold ≤ t.severity <;>
      simp [distressed, hup]
  rename_i hpb
  have hq : m.throttled config t.now = false → m.shouldPublish config t = false := by
    intro hf
    simpa [hf] using hpb
  rcases hp : m.lastPublishAt with _ | sent
  · rw [hp] at hw
    refine ⟨⟨hw, nofun⟩, fun hf => ?_⟩
    have := hq hf
    rw [shouldPublish, hp] at this
    exact hw.trans this.symm
  · -- had the reading fallen, an event would have been published
    have hup : config.publishThreshold ≤ t.severity := by
      by_contra hd
      rcases Bool.eq_false_or_eq_true (m.throttled config t.now) with hth | hf
      · exact hd (ht hth (by simp [hp]))
      · have := hq hf
        simp [shouldPublish, hp, hd, hh] at this
    rw [hp] at hw
    exact ⟨⟨hw, fun _ => hup⟩, fun _ => hw.trans (decide_eq_true hup).symm⟩

/-- Whenever something can be published, the last event says afterwards what the reading says. -/
theorem last_word_true (config : DistressMonitorConfig) (ticks : List Tick)
    (h : Along (tick config) (NoFall config) {} ticks) :
    Along (tick config) (fun m t => m.throttled config t.now = false →
      ((m.tick config t).distressed config = true ↔ config.publishThreshold ≤ t.severity))
      {} ticks := by
  refine along_of_inv (I := Inv config) (fun m t hm ht => (inv_tick m t hm ht).1)
    (fun m t hm ht hf => ?_) _ ticks ⟨rfl, nofun⟩ h
  rw [(inv_tick m t hm ht).2 hf, decide_eq_true_iff]

def sampleTicks (low : ℕ) : List Tick :=
  [⟨some 201, 0, 0, 0⟩, ⟨some 100, low, 0, low⟩, ⟨some 100, 1200, 1, 1200⟩]

theorem last_word_true_recovered :
    (tick ⟨200, 30000, 500⟩ (run (tick ⟨200, 30000, 500⟩) {} ((sampleTicks 600).take 2))
      ⟨some 100, 1200, 1, 1200⟩).distressed ⟨200, 30000, 500⟩ = true ↔ (200 : UInt8) ≤ 100 :=
  (last_word_true ⟨200, 30000, 500⟩ (sampleTicks 600) (by decide)).2.2.1 (by decide)

/-- A recovery that comes while nothing may be published is never told. -/
theorem throttled_recovery_lost :
    let m := run (tick ⟨200, 30000, 500⟩) {} ((sampleTicks 300).take 2)
    m.throttled ⟨200, 30000, 500⟩ 1200 = false ∧
      (m.tick ⟨200, 30000, 500⟩ ⟨some 100, 1200, 1, 1200⟩).distressed ⟨200, 30000, 500⟩ = true := by
  decide

end DistressMonitor

namespace PeerQueue

/-- What was queued is written or still queued, in order. -/
def Whole (p : PeerQueue) : Prop := p.written.map Prod.snd ++ p.queue = p.accepted

lemma whole_step (p : PeerQueue) (e : GossipStep) (h : p.Whole) (he : e.writeFails = false) :
    (p.step e).Whole := by
  unfold Whole at h ⊢
  cases e with
  | publish authorized verified fresh wire =>
    simp only [step]
    split_ifs
    · exact h
    · rw [← h, append_assoc]
    · exact h
  | connect ok =>
    simp only [step]
    split_ifs <;> exact h
  | write failsAfter =>
    obtain rfl : failsAfter = none := by simpa [writeFails] using he
    simp only [step]
    split_ifs
    · exact h
    · split <;> simp_all

lemma written_step {p : PeerQueue} {e : GossipStep} (hp : p.connected = true)
    (he : e.writeFails = false) (n : ℕ) : (p.step e).connected = true ∧
      p.written.map Prod.snd ++ p.queue.take (n + if e.isWrite then 1 else 0) <+:
        (p.step e).written.map Prod.snd ++ (p.step e).queue.take n := by
  cases e with
  | publish authorized verified fresh wire =>
    simp only [step, isWrite, Bool.false_eq_true, if_false, Nat.add_zero]
    split_ifs
    · exact ⟨hp, prefix_refl _⟩
    · rw [take_append]
      exact ⟨hp, (prefix_append_right_inj _).2 (prefix_append _ _)⟩
    · exact ⟨hp, prefix_refl _⟩
  | connect ok => simp [step, hp, isWrite]
  | write failsAfter =>
    obtain rfl : failsAfter = none := by simpa [writeFails] using he
    rcases hq : p.queue with _ | ⟨payload, queue⟩ <;> simp [step, hp, hq, isWrite]

lemma written_run : ∀ (es : List GossipStep) (p : PeerQueue), p.connected = true →
    (∀ e ∈ es, e.writeFails = false) →
      p.written.map Prod.snd ++ p.queue.take (es.countP (·.isWrite)) <+:
        (run step p es).written.map Prod.snd
  | [], p, _, _ => by simp
  | e :: es, p, hp, hes => by
    obtain ⟨he, hes⟩ := forall_mem_cons.1 hes
    obtain ⟨hp', hs⟩ := written_step hp he (es.countP (·.isWrite))
    rw [countP_cons]
    exact hs.trans (written_run es _ hp' hes)

/-- As long as no write fails, queued frames are written in order once the peer is reached. -/
theorem queued_frames_written (depth : ℕ) (es : List GossipStep)
    (hes : ∀ e ∈ es, e.writeFails = false) :
    let p := run step (new depth) es
    p.written.map Prod.snd ++ p.queue = p.accepted ∧
      ∀ more, (∀ e ∈ more, e.writeFails = false) → p.queue.length ≤ more.countP (·.isWrite) →
        p.accepted <+: (run step p (.connect true :: more)).written.map Prod.snd := by
  intro p
  have hw : p.Whole :=
    inv_run (fun p e h he => whole_step p e h he.1) _ es rfl
      (along_and_of_forall hes (along_true _ es))
  refine ⟨hw, fun more hm hl => ?_⟩
  rw [run_cons, ← hw]
  have hcn : (p.step (.connect true)).connected = true ∧
      (p.step (.connect true)).written = p.written ∧ (p.step (.connect true)).queue = p.queue := by
    simp only [step]
    split_ifs with hc <;> simp_all
  have hr := written_run more _ hcn.1 hm
  rwa [hcn.2.1, hcn.2.2, take_of_length_le hl] at hr

theorem queued_frames_written_one : [[1, 2, 3, 4]] <+:
    (run step (new 4) [.publish true true true [1, 2, 3, 4], .connect false, .connect true,
      .write none]).written.map Prod.snd :=
  (queued_frames_written 4 [.publish true true true [1, 2, 3, 4], .connect false]
    (by decide)).2 [.write none] (by decide) (by decide)

/-- A frame whose write fails part-way is not written again. -/
theorem frame_lost_on_failed_write :
    let p := run step (new 4) [.publish true true true [1, 2, 3, 4], .connect true, .write (some 3)]
    p.accepted = [[1, 2, 3, 4]] ∧ p.queue = [] ∧
      (run step p [.connect true, .write none]).written = [(1, [1, 2, 3])] := by
  decide

end PeerQueue

end Mirage.Cohort
