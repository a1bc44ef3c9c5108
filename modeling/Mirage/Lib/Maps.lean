import Mathlib.Data.List.AList
import Mathlib.Data.List.Induction

/-!
# Finite maps

Operations on `AList` as a hash map has them. `Indexes f m rev` says that `rev` finds the key of `m`
whose value has a given mark under `f`.
-/

namespace Maps

open List Option AList Nat

variable {α β : Type*} [DecidableEq α]

def size (m : AList fun _ : α => β) : ℕ := m.entries.length

def count (p : β → Bool) (m : AList fun _ : α => β) : ℕ := m.entries.countP fun s => p s.2

def retain (p : β → Bool) (m : AList fun _ : α => β) : AList fun _ : α => β :=
  ⟨m.entries.filter fun s => p s.2, m.nodupKeys.sublist List.filter_sublist⟩

def insertAll (m : AList fun _ : α => β) (l : List (α × β)) : AList fun _ : α => β :=
  l.foldl (fun m s => m.insert s.1 s.2) m

variable {m : AList fun _ : α => β} {p : β → Bool} {a : α} {b : β}

lemma mem_iff_lookup : a ∈ m ↔ ∃ b, m.lookup a = some b :=
  lookup_isSome.symm.trans isSome_iff_exists

lemma mem_of_lookup (h : m.lookup a = some b) : a ∈ m := mem_iff_lookup.2 ⟨b, h⟩

lemma lookup_retain : (retain p m).lookup a = (m.lookup a).filter p := by
  refine ext fun b => ?_
  rw [mem_def.symm, mem_def.symm, mem_lookup_iff, mem_filter_iff, mem_lookup_iff]
  exact mem_filter

lemma lookup_insert_eq_ite (a' : α) :
    (m.insert a b).lookup a' = if a' = a then some b else m.lookup a' := by
  split_ifs with ha
  · rw [ha, lookup_insert]
  · rw [lookup_insert_ne ha]

lemma lookup_erase_eq_ite (a' : α) :
    (m.erase a).lookup a' = if a' = a then none else m.lookup a' := by
  split_ifs with ha
  · rw [ha, lookup_erase]
  · rw [lookup_erase_ne ha]

variable {a' : α} {b' : β}

lemma lookup_of_insert (h : (m.insert a b).lookup a' = some b') :
    (a' = a ∧ b' = b) ∨ m.lookup a' = some b' := by
  by_cases ha : a' = a
  · rw [ha, lookup_insert, some.injEq] at h
    exact .inl ⟨ha, h.symm⟩
  · rw [lookup_insert_ne ha] at h
    exact .inr h

lemma lookup_of_erase (h : (m.erase a).lookup a' = some b) : m.lookup a' = some b := by
  by_cases ha : a' = a
  · rw [ha, lookup_erase] at h
    cases h
  · rwa [lookup_erase_ne ha] at h

lemma lookup_insert_other (hb : m.lookup a ≠ some b') (h : m.lookup a' = some b') :
    (m.insert a b).lookup a' = some b' := by
  rw [lookup_insert_ne, h]
  rintro rfl
  exact hb h

lemma lookup_erase_other (hb : m.lookup a ≠ some b') (h : m.lookup a' = some b') :
    (m.erase a).lookup a' = some b' := by
  rw [lookup_erase_ne, h]
  rintro rfl
  exact hb h

lemma lookup_of_retain (h : (retain p m).lookup a = some b) : m.lookup a = some b := by
  rw [lookup_retain] at h
  exact (filter_eq_some_iff.1 h).1

lemma erase_eq_self (h : m.lookup a = none) : m.erase a = m :=
  ext (kerase_of_notMem_keys (lookup_eq_none.1 h))

lemma erase_insert (h : a ∉ m) : (m.insert a b).erase a = m := by
  refine ext ?_
  show kerase a (m.insert a b).entries = m.entries
  rw [entries_insert_of_notMem h]
  exact kerase_cons_eq rfl

lemma lookup_foldl_erase : ∀ (l : List α) (m : AList fun _ : α => β),
    (l.foldl (fun m a => m.erase a) m).lookup a = if a ∈ l then none else m.lookup a
  | [], _ => rfl
  | a' :: l, m => by
    rw [foldl_cons, lookup_foldl_erase]
    by_cases ha : a = a'
    · subst ha
      simp
    · simp [ha, lookup_erase_ne]

lemma lookup_of_foldl_erase {l : List α}
    (h : (l.foldl (fun m a => m.erase a) m).lookup a = some b) : m.lookup a = some b := by
  rw [lookup_foldl_erase] at h
  split_ifs at h
  exact h

lemma retain_eq_self (h : ∀ a b, m.lookup a = some b → p b = true) : retain p m = m := by
  refine ext (filter_eq_self.2 fun s hs => h s.1 s.2 ?_)
  exact mem_lookup_iff.2 hs

lemma mem_of_mem_retain (h : a ∈ retain p m) : a ∈ m := by
  rw [← lookup_isSome, lookup_retain] at h
  rw [← lookup_isSome]
  exact isSome_of_isSome_filter _ _ h

lemma count_insert : count p (m.insert a b) = count p (m.erase a) + if p b then 1 else 0 := by
  unfold count
  rw [entries_insert, countP_cons]
  rfl

lemma count_eq_erase (h : m.lookup a = some b) :
    count p m = count p (m.erase a) + if p b then 1 else 0 := by
  have ha : a ∈ m.entries.keys := mem_of_lookup h
  obtain ⟨b', l₁, l₂, ha₁, hl, hk⟩ := exists_of_kerase ha
  have hb : b' = b := by
    have hm : (⟨a, b'⟩ : Sigma fun _ => β) ∈ m.entries := by simp [hl]
    exact some.inj ((mem_lookup_iff.2 hm).symm.trans h)
  have he : (m.erase a).entries = l₁ ++ l₂ := hk
  unfold count
  rw [he, hl, countP_append, countP_cons, countP_append, hb, Nat.add_assoc]

lemma count_erase_of_none (h : m.lookup a = none) : count p (m.erase a) = count p m := by
  have he : (m.erase a).entries = m.entries :=
    kerase_of_notMem_keys (lookup_eq_none.1 h)
  unfold count
  rw [he]

omit [DecidableEq α] in
lemma size_eq_count : size m = count (fun _ => true) m := by
  simp [size, count]

lemma count_insert_of_eq (h : m.lookup a = some b) (hp : p b' = p b) :
    count p (m.insert a b') = count p m := by
  rw [count_insert, count_eq_erase h, hp]

lemma count_insert_of_none (h : m.lookup a = none) :
    count p (m.insert a b) = count p m + if p b then 1 else 0 := by
  rw [count_insert, count_erase_of_none h]

lemma count_erase_le : count p (m.erase a) ≤ count p m := by
  cases h : m.lookup a with
  | none => exact le_of_eq (count_erase_of_none h)
  | some b => rw [count_eq_erase h]; exact le_add_right _ _

lemma count_insert_le_of_imp (h : m.lookup a = some b)
    (hp : p b' = true → p b = true) : count p (m.insert a b') ≤ count p m := by
  rw [count_insert, count_eq_erase h]
  by_cases hb' : p b' = true
  · rw [if_pos hb', if_pos (hp hb')]
  · rw [if_neg hb']
    exact le_add_right _ _

lemma count_insert_le : count p (m.insert a b) ≤ count p m + 1 := by
  rw [count_insert]
  refine Nat.add_le_add count_erase_le ?_
  split_ifs
  · exact le_refl 1
  · exact zero_le 1

lemma size_insert_of_some (h : m.lookup a = some b) : size (m.insert a b') = size m := by
  rw [size_eq_count, size_eq_count]
  exact count_insert_of_eq h rfl

lemma size_insert_of_none (h : m.lookup a = none) : size (m.insert a b) = size m + 1 := by
  rw [size_eq_count, size_eq_count]
  exact count_insert_of_none h

lemma size_erase_le : size (m.erase a) ≤ size m := by
  rw [size_eq_count, size_eq_count]
  exact count_erase_le

lemma size_erase_of_some (h : m.lookup a = some b) : size (m.erase a) + 1 = size m := by
  rw [size_eq_count, size_eq_count, count_eq_erase h]
  rfl

/-- A map that leads back to the places of the items that pass a test has as many entries. -/
theorem countP_le_size {γ : Type*} {p : γ → Bool} {f : γ → α} (l : List γ) :
    ∀ (m : AList fun _ : α => ℕ),
      (∀ i x, l[i]? = some x → p x = true → m.lookup (f x) = some i) → l.countP p ≤ size m := by
  induction l using reverseRecOn with
  | nil => exact fun _ _ => zero_le _
  | append_singleton l y ih =>
    intro m h
    have hin : ∀ (i : ℕ) x, l[i]? = some x → (l ++ [y])[i]? = some x := by
      intro i x hx
      rwa [List.getElem?_append_left (List.getElem?_eq_some_iff.1 hx).1]
    rw [countP_append, countP_singleton]
    by_cases hy : p y = true
    · -- The place of the last item is nobody else's, so its key can go.
      have hl := h l.length y getElem?_concat_length hy
      rw [if_pos hy, ← size_erase_of_some hl]
      refine succ_le_succ (ih _ fun i x hx hp => ?_)
      have hi := h i x (hin i x hx) hp
      have hne : f x ≠ f y := by
        intro heq
        rw [heq, hl] at hi
        have hlt := (List.getElem?_eq_some_iff.1 hx).1
        exact absurd (some.inj hi) (ne_of_gt hlt)
      rw [lookup_erase_ne hne]
      exact hi
    · rw [if_neg hy]
      exact ih m fun i x hx => h i x (hin i x hx)

lemma lookup_insertAll_of_notMem : ∀ (l : List (α × β)) (m : AList fun _ : α => β),
    a ∉ l.map Prod.fst → (insertAll m l).lookup a = m.lookup a
  | [], _, _ => rfl
  | s :: l, m, h => by
    rw [map_cons, mem_cons, not_or] at h
    refine (lookup_insertAll_of_notMem l _ h.2).trans (lookup_insert_ne h.1)

lemma lookup_insertAll (l l' : List (α × β))
    (h : a ∉ l'.map Prod.fst) : (insertAll m (l ++ (a, b) :: l')).lookup a = some b := by
  rw [insertAll, foldl_append]
  exact (lookup_insertAll_of_notMem l' _ h).trans (lookup_insert _)

lemma mem_of_lookup_insertAll : ∀ (l : List (α × β)) (m : AList fun _ : α => β),
    (insertAll m l).lookup a = some b → (a, b) ∈ l ∨ m.lookup a = some b
  | [], _, h => .inr h
  | s :: l, m, h => by
    rcases mem_of_lookup_insertAll l _ h with hl | hm
    · exact .inl (mem_cons_of_mem _ hl)
    by_cases ha : a = s.1
    · subst ha
      rw [lookup_insert] at hm
      rw [← some.inj hm]
      exact .inl mem_cons_self
    · rw [lookup_insert_ne ha] at hm
      exact .inr hm

lemma size_insertAll : ∀ (l : List (α × β)) (m : AList fun _ : α => β),
    (l.map Prod.fst).Nodup → (∀ s ∈ l, s.1 ∉ m) → size (insertAll m l) = size m + l.length
  | [], _, _, _ => rfl
  | s :: l, m, hl, hm => by
    rw [map_cons, nodup_cons] at hl
    have hs : s.1 ∉ m := hm s mem_cons_self
    have hn : ∀ t ∈ l, t.1 ∉ m.insert s.1 s.2 := fun t ht h => by
      rcases (mem_insert m).1 h with he | he
      · exact hl.1 (he ▸ mem_map_of_mem ht)
      · exact hm t (mem_cons_of_mem _ ht) he
    have hsz : size (m.insert s.1 s.2) = size m + 1 :=
      size_insert_of_none (lookup_eq_none.2 hs)
    refine (size_insertAll l _ hl.2 hn).trans ?_
    rw [hsz, length_cons]
    omega

section Index

variable {γ : Type*} [DecidableEq γ] {f : β → Option γ} {rev : AList fun _ : γ => α} {b' : β}
  {c : γ}

/-- `rev` leads from a mark to the key of the value that has it. -/
def Indexes (f : β → Option γ) (m : AList fun _ : α => β) (rev : AList fun _ : γ => α) : Prop :=
  ∀ c a, rev.lookup c = some a ↔ ∃ b, m.lookup a = some b ∧ f b = some c

lemma indexes_empty : Indexes f (∅ : AList fun _ : α => β) (∅ : AList fun _ : γ => α) := by
  intro c a
  simp

variable (h : Indexes f m rev)

include h

lemma Indexes.unique {a a' : α} (ha : m.lookup a = some b)
    (ha' : m.lookup a' = some b') (hb : f b = some c) (hb' : f b' = some c) : a = a' := by
  have h₁ := (h c a).2 ⟨b, ha, hb⟩
  have h₂ := (h c a').2 ⟨b', ha', hb'⟩
  exact some.inj (h₁.symm.trans h₂)

lemma Indexes.insert_same (ha : m.lookup a = some b) (hf : f b' = f b) :
    Indexes f (m.insert a b') rev := by
  intro c i
  rw [h]
  by_cases hi : i = a
  · subst hi
    simp [ha, hf]
  · rw [lookup_insert_ne hi]

lemma Indexes.insert_unmarked (ha : m.lookup a = none) (hf : f b = none) :
    Indexes f (m.insert a b) rev := by
  intro c i
  rw [h]
  by_cases hi : i = a
  · subst hi
    simp [ha, hf]
  · rw [lookup_insert_ne hi]

lemma Indexes.insert_mark (ha : m.lookup a = some b) (hf : f b = none) (hc : rev.lookup c = none)
    (hf' : f b' = some c) : Indexes f (m.insert a b') (rev.insert c a) := by
  intro d i
  by_cases hd : d = c
  · subst hd
    by_cases hi : i = a
    · subst hi
      simp [hf']
    · rw [lookup_insert_ne hi, ← h, hc]
      simp [Ne.symm hi]
  · rw [lookup_insert_ne hd, h]
    by_cases hi : i = a
    · subst hi
      simp [ha, hf, hf', Ne.symm hd]
    · rw [lookup_insert_ne hi]

lemma Indexes.erase_unmarked (hf : ∀ b, m.lookup a = some b → f b = none) :
    Indexes f (m.erase a) rev := by
  intro c i
  rw [h]
  by_cases hi : i = a
  · subst hi
    simp only [lookup_erase, reduceCtorEq, false_and, exists_false, iff_false]
    rintro ⟨b, hb, hc⟩
    rw [hf b hb] at hc
    cases hc
  · rw [lookup_erase_ne hi]

lemma Indexes.erase_marked (ha : m.lookup a = some b) (hf : f b = some c) :
    Indexes f (m.erase a) (rev.erase c) := by
  intro d i
  by_cases hd : d = c
  · subst hd
    simp only [lookup_erase, reduceCtorEq, false_iff]
    rintro ⟨b', hb', hd⟩
    by_cases hi : i = a
    · subst hi
      rw [lookup_erase] at hb'
      cases hb'
    · rw [lookup_erase_ne hi] at hb'
      exact hi (h.unique hb' ha hd hf)
  · rw [lookup_erase_ne hd, h]
    by_cases hi : i = a
    · subst hi
      simp [ha, hf, Ne.symm hd]
    · rw [lookup_erase_ne hi]

end Index

end Maps
