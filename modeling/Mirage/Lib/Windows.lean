import Mathlib.Data.List.Basic
import Mathlib.Data.List.Sort

/-!
# Sliding windows

Instants of a log, the newest first. If the trailing window was within a bound whenever an instant
came, every window is (`inside_cons_le`). A queue that drops its old instants from the front holds
the trailing window (`dropWhile_length`).
-/

namespace Windows

open List

variable {d w now now' t : ℕ} {l : List ℕ}

def trailing (d now : ℕ) (l : List ℕ) : ℕ := l.countP fun t => now ≤ t + d

def inside (d w : ℕ) (l : List ℕ) : ℕ := l.countP fun t => w ≤ t && t ≤ w + d

lemma trailing_le (h : now ≤ now') : trailing d now' l ≤ trailing d now l := by
  refine countP_mono_left fun t _ ht => ?_
  simp only [decide_eq_true_eq] at ht ⊢
  omega

lemma trailing_cons_self : trailing d now (now :: l) = trailing d now l + 1 := by
  unfold trailing
  simp

lemma inside_cons_le {n : ℕ} (htr : trailing d now l + 1 ≤ n) (ho : inside d w l ≤ n) :
    inside d w (now :: l) ≤ n := by
  unfold inside at ho ⊢
  rw [countP_cons]
  split_ifs with hin
  · simp only [Bool.and_eq_true, decide_eq_true_eq] at hin
    have hle : (l.countP fun t => w ≤ t && t ≤ w + d) ≤ trailing d now l := by
      refine countP_mono_left fun t _ ht => ?_
      simp only [Bool.and_eq_true, decide_eq_true_eq] at ht ⊢
      omega
    omega
  · exact ho

lemma dropWhile_eq_filter {c : ℕ} : ∀ {l : List ℕ}, l.Pairwise (· ≤ ·) →
    l.dropWhile (fun t => t < c) = l.filter fun t => c ≤ t
  | [], _ => rfl
  | t :: l, h => by
    obtain ⟨ht, hl⟩ := pairwise_cons.1 h
    by_cases hc : t < c
    · rw [dropWhile_cons_of_pos (by simpa using hc), dropWhile_eq_filter hl,
        filter_cons_of_neg (by simpa using hc)]
    rw [dropWhile_cons_of_neg (by simpa using hc), filter_eq_self.2]
    intro x hx
    rcases mem_cons.1 hx with rfl | hx
    · simpa using hc
    · have := ht x hx
      simp only [decide_eq_true_eq]
      omega

lemma dropWhile_length (hd : d ≤ now) (h : l.Pairwise (· ≤ ·)) :
    (l.dropWhile fun t => t < now - d).length = trailing d now l := by
  rw [dropWhile_eq_filter h, ← countP_eq_length_filter]
  refine countP_congr fun t _ => ?_
  simp only [decide_eq_true_eq]
  omega

lemma trailing_dropWhile (hd : d ≤ now) (hn : now ≤ now') (h : l.Pairwise (· ≤ ·)) :
    trailing d now' (l.dropWhile fun t => t < now - d) = trailing d now' l := by
  rw [dropWhile_eq_filter h]
  unfold trailing
  rw [countP_filter]
  refine countP_congr fun t _ => ?_
  simp only [Bool.and_eq_true, decide_eq_true_eq]
  omega

end Windows
