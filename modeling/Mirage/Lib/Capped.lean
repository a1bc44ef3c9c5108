import Mathlib.Data.List.MinMax
import Mirage.Lib.Maps

/-!
# Tables with a cap

A hash map is walked in an order of its own (`Walk`). A new key that finds the table full has an
entry leave first, the oldest of those it looks at. While keys fit nothing leaves
(`makeRoom_of_fits`).
-/

namespace Capped

open Maps AList

variable {α β : Type*} [DecidableEq α]

structure Walk (α β : Type*) where
  iter : (AList fun _ : α => β) → List (Σ _ : α, β)
  perm : ∀ m, (iter m).Perm m.entries

instance : Inhabited (Walk α β) := ⟨AList.entries, fun _ => .refl _⟩

def oldest (age : β → ℕ) (l : List (Σ _ : α, β)) : Option α :=
  (l.argmin fun e => age e.2).map Sigma.fst

def Fits (cap : ℕ) (m : AList fun _ : α => β) (a : α) : Prop := size m < cap ∨ a ∈ m

instance (cap : ℕ) (m : AList fun _ : α => β) (a : α) : Decidable (Fits cap m a) :=
  inferInstanceAs (Decidable (_ ∨ _))

def makeRoom (cap : ℕ) (age : β → ℕ) (walk : Walk α β) (a : α) (m : AList fun _ : α => β) :
    AList fun _ : α => β :=
  if Fits cap m a then m
  else match oldest age (walk.iter m) with
    | none => m
    | some victim => m.erase victim

variable {m : AList fun _ : α => β} {a : α} {b : β} {age : β → ℕ} {cap : ℕ} {walk : Walk α β}

lemma makeRoom_of_fits (h : Fits cap m a) : makeRoom cap age walk a m = m := if_pos h

lemma mem_iter {e : Σ _ : α, β} : e ∈ walk.iter m ↔ m.lookup e.1 = some e.2 := by
  rw [(walk.perm m).mem_iff]
  exact mem_lookup_iff.symm

omit [DecidableEq α] in
/-- The oldest of some entries is one of them, and none of them is older. -/
theorem oldest_eq_some {l : List (Σ _ : α, β)} (h : oldest age l = some a) :
    ∃ b, ⟨a, b⟩ ∈ l ∧ ∀ e ∈ l, age b ≤ age e.2 := by
  obtain ⟨⟨a', b⟩, hm, rfl⟩ := Option.map_eq_some_iff.1 h
  exact ⟨b, List.argmin_mem hm, fun e he =>
    List.le_of_mem_argmin (f := fun e => age e.2) he hm⟩

omit [DecidableEq α] in
lemma oldest_eq_none {l : List (Σ _ : α, β)} : oldest age l = none ↔ l = [] := by
  simp [oldest]

lemma size_insert_of_fits (h : Fits cap m a) (hc : size m ≤ cap) : size (m.insert a b) ≤ cap := by
  by_cases ha : a ∈ m
  · obtain ⟨b', hb'⟩ := mem_iff_lookup.1 ha
    rwa [size_insert_of_some hb']
  · rw [size_insert_of_none (lookup_eq_none.2 ha)]
    exact h.resolve_right ha

end Capped
