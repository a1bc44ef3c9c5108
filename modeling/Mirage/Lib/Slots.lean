import Mathlib.Data.List.Basic
import Mathlib.Data.List.Perm.Basic

/-!
# Places in a list

`splitFirst` finds the first element that passes a test and keeps what stands before and after it,
so that it can be changed in place. `closeGap` is what `swap_remove` leaves behind the place of the
element that it takes: the last one moves there.
-/

namespace Slots

variable {α : Type*} {p : α → Bool}

def splitFirst (p : α → Bool) : List α → Option (List α × α × List α)
  | [] => none
  | x :: l => if p x then some ([], x, l) else (splitFirst p l).map fun s => (x :: s.1, s.2)

def closeGap (l : List α) : List α :=
  match l.getLast? with
  | none => []
  | some x => x :: l.dropLast

lemma splitFirst_eq_some : ∀ {l a b : List α} {x : α}, splitFirst p l = some (a, x, b) →
    l = a ++ x :: b ∧ p x = true ∧ ∀ y ∈ a, p y = false
  | [], _, _, _, h => by cases h
  | y :: l, a, b, x, h => by
    unfold splitFirst at h
    split_ifs at h with hy
    · cases h
      exact ⟨rfl, hy, fun z hz => nomatch hz⟩
    obtain ⟨⟨a', x', b'⟩, hr, heq⟩ := Option.map_eq_some_iff.1 h
    cases heq
    obtain ⟨rfl, hx, ha⟩ := splitFirst_eq_some hr
    refine ⟨rfl, hx, fun z hz => ?_⟩
    rcases List.mem_cons.1 hz with rfl | hz
    · exact Bool.of_not_eq_true hy
    · exact ha z hz

lemma splitFirst_eq_none : ∀ {l : List α}, splitFirst p l = none → ∀ y ∈ l, p y = false
  | [], _, _, hy => nomatch hy
  | x :: l, h, y, hy => by
    unfold splitFirst at h
    split_ifs at h with hx
    rcases List.mem_cons.1 hy with rfl | hy
    · exact Bool.of_not_eq_true hx
    · exact splitFirst_eq_none (Option.map_eq_none_iff.1 h) y hy

lemma closeGap_perm (l : List α) : (closeGap l).Perm l := by
  unfold closeGap
  cases h : l.getLast? with
  | none => rw [List.getLast?_eq_none_iff.1 h]
  | some x =>
    obtain ⟨l', rfl⟩ := List.getLast?_eq_some_iff.1 h
    rw [List.dropLast_concat]
    exact (List.perm_append_singleton x l').symm

lemma getElem?_append_of_some {u : ℕ} {l l' : List α} {x : α} (h : l[u]? = some x) :
    (l ++ l')[u]? = some x := by
  rw [List.getElem?_append_left (List.getElem?_eq_some_iff.1 h).1, h]

end Slots
