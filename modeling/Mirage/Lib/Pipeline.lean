import Mathlib.Algebra.BigOperators.Intervals
import Mathlib.Logic.Function.Basic

/-!
# A line of queues

Items pass through `n` queues in order: `passed k` is how many have come as far as queue `k`, and
`view k i` is item `i` as it stands there (`Holds`). Items enter at the front, or further on when
nothing is before them, and the head of a queue moves to the next one or, from the last, out.
-/

namespace Pipeline

open Function List Nat

variable {β : Type*}

/-- Queue `k` holds the items that have come as far and no further. -/
def Holds (n : ℕ) (view : ℕ → ℕ → β) (queue : ℕ → List β) (passed : ℕ → ℕ) : Prop :=
  ∀ k < n, passed (k + 1) ≤ passed k ∧
    queue k = (List.range' (passed (k + 1)) (passed k - passed (k + 1))).map (view k)

variable {n k : ℕ} {view view' : ℕ → ℕ → β} {queue : ℕ → List β} {passed : ℕ → ℕ}

section

variable (h : Holds n view queue passed)

include h

lemma Holds.congr
    (hv : ∀ k < n, ∀ i < passed k, view k i = view' k i) : Holds n view' queue passed := by
  intro k hk
  refine ⟨(h k hk).1, (h k hk).2.trans (map_congr_left fun i hi => ?_)⟩
  have hb := mem_range'_1.1 hi
  exact hv k hk i (by omega)

lemma Holds.length (hk : k < n) : (queue k).length = passed k - passed (k + 1) := by
  rw [(h k hk).2, length_map, length_range']

lemma Holds.antitone {j : ℕ} (hjk : j ≤ k) (hk : k ≤ n) : passed k ≤ passed j := by
  induction k, hjk using le_induction with
  | base => exact le_refl _
  | succ m _ ih => exact le_trans (h m hk).1 (ih (le_of_succ_le hk))

lemma Holds.sum (hk : k ≤ n) : ∑ j ∈ Finset.Ico k n, (queue j).length = passed k - passed n := by
  induction n, hk using le_induction with
  | base => simp
  | succ m hkm ih =>
    have hi : Holds m view queue passed := fun j hj => h j (lt_succ_of_lt hj)
    have hl := (h m (lt_succ_self m)).1
    have ha := hi.antitone hkm (le_refl m)
    rw [Finset.sum_Ico_succ_top hkm, ih hi, h.length (lt_succ_self m)]
    omega

lemma Holds.head (hk : k < n) {x : β} {rest : List β} (hq : queue k = x :: rest) :
    passed (k + 1) < passed k ∧ x = view k (passed (k + 1)) ∧
      rest = (range' (passed (k + 1) + 1) (passed k - (passed (k + 1) + 1))).map (view k) := by
  obtain ⟨hle, heq⟩ := h k hk
  rw [hq] at heq
  obtain ⟨m, hm⟩ : ∃ m, passed k - passed (k + 1) = m + 1 := by
    refine exists_eq_succ_of_ne_zero fun hz => ?_
    rw [hz] at heq
    cases heq
  rw [hm, range'_succ, map_cons] at heq
  obtain ⟨hx, hr⟩ := cons.inj heq
  have hm' : passed k - (passed (k + 1) + 1) = m := by omega
  exact ⟨by omega, hx, hm' ▸ hr⟩

end

lemma range'_append {a b : ℕ} (h : a ≤ b) (m : ℕ) :
    range' a (b + m - a) = range' a (b - a) ++ range' b m := by
  obtain ⟨d, rfl⟩ := Nat.exists_eq_add_of_le h
  rw [Nat.add_assoc, Nat.add_sub_cancel_left, Nat.add_sub_cancel_left, range'_append_1]

lemma Holds.enter (h : Holds n view queue passed) (hk : k < n)
    (hs : ∀ j < k, passed j = passed k) (m : ℕ) :
    Holds n view
      (update queue k (queue k ++ (range' (passed k) m).map (view k)))
      (fun j => if j ≤ k then passed k + m else passed j) := by
  intro j hj
  dsimp only
  obtain ⟨hle, heq⟩ := h j hj
  rcases lt_trichotomy j k with hlt | rfl | hgt
  · have he : queue j = [] := by
      have h₁ : passed j = passed k := hs j hlt
      have h₂ : passed (j + 1) = passed k := by
        rcases lt_or_ge (j + 1) k with h' | h'
        · exact hs _ h'
        · rw [show j + 1 = k by omega]
      rw [heq, h₁, h₂, Nat.sub_self]
      rfl
    rw [if_pos (le_of_lt hlt), if_pos (succ_le_of_lt hlt),
      update_of_ne (Nat.ne_of_lt hlt), he, Nat.sub_self]
    exact ⟨le_refl _, rfl⟩
  · rw [if_pos (le_refl j), if_neg (by omega), update_self, range'_append hle, map_append, ← heq]
    exact ⟨le_trans hle (le_add_right _ _), rfl⟩
  · rw [if_neg (by omega), if_neg (by omega), update_of_ne (by omega)]
    exact ⟨hle, heq⟩

variable {x : β} {rest : List β}

lemma Holds.leave (h : Holds n view queue passed) (hk : k + 1 = n) (hq : queue k = x :: rest) :
    Holds n view (update queue k rest) (update passed (k + 1) (passed (k + 1) + 1)) := by
  obtain ⟨hlt, -, hr⟩ := h.head (by omega) hq
  intro j hj
  have hj' : j ≠ k + 1 := by omega
  rw [update_of_ne hj']
  rcases eq_or_ne j k with rfl | hne
  · rw [update_self, update_self]
    exact ⟨hlt, hr⟩
  · have hn' : j + 1 ≠ k + 1 := fun heq => hne (succ.inj heq)
    rw [update_of_ne hne, update_of_ne hn']
    exact h j hj

lemma Holds.move (h : Holds n view queue passed) (hk : k + 1 < n)
    (hq : queue k = x :: rest) : Holds n view (update (update queue k rest) (k + 1)
        (queue (k + 1) ++ [view (k + 1) (passed (k + 1))]))
      (update passed (k + 1) (passed (k + 1) + 1)) := by
  obtain ⟨hlt, -, hr⟩ := h.head (by omega) hq
  have hs : k ≠ k + 1 := Nat.ne_of_lt (Nat.lt_succ_self k)
  intro j hj
  rcases eq_or_ne j k with rfl | hne
  · rw [update_self, update_of_ne hs, update_of_ne hs, update_self]
    exact ⟨hlt, hr⟩
  have hn' : j + 1 ≠ k + 1 := fun heq => hne (succ.inj heq)
  rw [update_of_ne hn']
  rcases eq_or_ne j (k + 1) with rfl | hl
  · obtain ⟨hle, heq⟩ := h (k + 1) hj
    rw [update_self, update_self, range'_append hle, map_append, ← heq]
    exact ⟨le_succ_of_le hle, rfl⟩
  · rw [update_of_ne hl, update_of_ne hl, update_of_ne hne]
    exact h j hj

end Pipeline
