import Mathlib.Data.List.Infix
import Mathlib.Logic.Relation

/-!
# One direction of a stop-and-wait carrier

What is written waits until all of it is collected into one body, and the next body is collected
when the peer has taken the last one. Nothing is lost, doubled or reordered (`Sound`), and a body
that is taken brings all that was written before it was collected (`Carried`).
-/

namespace Flows

variable {α : Type*}

structure Flow (α : Type*) where
  written : List α
  queued : List α
  wire : List α
  arrived : List α
  sent : ℕ
  received : ℕ

namespace Flow

inductive Step : Flow α → Flow α → Prop
  | stay (f : Flow α) : Step f f
  | write (f : Flow α) (items : List α) :
    Step f { f with written := f.written ++ items, queued := f.queued ++ items }
  | collect (f : Flow α) (h : f.sent = f.received) :
    Step f { f with queued := [], wire := f.queued, sent := f.sent + 1 }
  | take (f : Flow α) (h : f.sent = f.received + 1) :
    Step f { f with wire := [], arrived := f.arrived ++ f.wire, received := f.received + 1 }

structure Sound (f : Flow α) : Prop where
  written : f.written = f.arrived ++ f.wire ++ f.queued
  wire : f.sent = f.received → f.wire = []
  order : f.received ≤ f.sent

structure Carried (f₀ f : Flow α) : Prop where
  written : f₀.written <+: f.written
  sent : f₀.sent < f.sent → f₀.written <+: f.arrived ++ f.wire
  received : f₀.sent < f.received → f₀.written <+: f.arrived

variable {f₀ f f' : Flow α}

lemma Sound.step (h : f.Sound) (hst : Step f f') : f'.Sound := by
  obtain ⟨hw, hwr, ho⟩ := h
  cases hst with
  | stay => exact ⟨hw, hwr, ho⟩
  | write items => exact ⟨by simp [hw], hwr, ho⟩
  | collect hs =>
    refine ⟨by simp [hw, hwr hs], fun h => ?_, Nat.le_succ_of_le ho⟩
    exact absurd (h.trans hs.symm) (Nat.succ_ne_self _)
  | take hs => exact ⟨by simp [hw], fun _ => rfl, hs.ge⟩

lemma Carried.step (h : Carried f₀ f) (hs : f.Sound) (hst : Step f f') : Carried f₀ f' := by
  cases hst with
  | stay => exact h
  | write items => exact ⟨h.written.trans (List.prefix_append _ _), h.sent, h.received⟩
  | collect hsn =>
    refine ⟨h.written, fun _ => ?_, h.received⟩
    have hw := h.written
    rwa [hs.written, hs.wire hsn, List.append_nil] at hw
  | take hsn =>
    have hc : f₀.sent < f.received + 1 → f₀.written <+: f.arrived ++ f.wire :=
      fun hlt => h.sent (hsn ▸ hlt)
    refine ⟨h.written, fun hlt => ?_, hc⟩
    rw [List.append_nil]
    exact h.sent hlt

lemma carried (hs : f₀.Sound) (h : Relation.ReflTransGen Step f₀ f) : f.Sound ∧ Carried f₀ f := by
  induction h with
  | refl =>
    exact ⟨hs, List.prefix_rfl, fun h => absurd h (lt_irrefl _), fun h => absurd hs.order h.not_ge⟩
  | tail _ hst ih => exact ⟨ih.1.step hst, ih.2.step ih.1 hst⟩

end Flow

end Flows
