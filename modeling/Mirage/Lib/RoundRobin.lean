import Mathlib

/-!
# Deficit round-robin

Items are grouped by key, and the groups take turns. On its turn a group's deficit grows by a
quantum and pays for as many of its items as it can. The order of the items of one key never changes
(`filter_schedule`), and with a positive quantum `fuel` turns are enough.
-/

namespace RoundRobin

open Function List

variable {α K : Type*} [DecidableEq K] (key : α → K) (cost : α → ℕ)

/-- The items by key, and the keys in the order their first items came. -/
structure Groups (α K : Type*) where
  order : List K
  queues : K → List α

def Groups.add (g : Groups α K) (a : α) : Groups α K where
  order := if (g.queues (key a)).isEmpty then g.order ++ [key a] else g.order
  queues := Function.update g.queues (key a) (g.queues (key a) ++ [a])

def group (items : List α) : Groups α K := items.foldl (Groups.add key) ⟨[], fun _ => []⟩

/-- What a deficit of `d` pays for, what is left, and the deficit left. -/
def serve (d : ℕ) : List α → List α × List α × ℕ
  | [] => ([], [], d)
  | a :: q =>
    if d < cost a then ([], a :: q, d)
    else
      let r := serve (d - cost a) q
      (a :: r.1, r.2.1, r.2.2)

/-- The turns of the keys of `active`, at most `fuel` of them. -/
def rounds (quantum : ℕ) : ℕ → List K → (K → List α) → (K → ℕ) → List α
  | 0, _, _, _ => []
  | _ + 1, [], _, _ => []
  | fuel + 1, k :: active, queues, deficit =>
    if (queues k).isEmpty then rounds quantum fuel active queues deficit
    else
      let r := serve cost (deficit k + quantum) (queues k)
      let queues := Function.update queues k r.2.1
      if r.2.1.isEmpty then
        r.1 ++ rounds quantum fuel active queues (Function.update deficit k 0)
      else
        r.1 ++ rounds quantum fuel (active ++ [k]) queues (Function.update deficit k r.2.2)

def fuel (items : List α) : ℕ := (items.map cost).sum + items.length

def schedule (quantum : ℕ) (items : List α) : List α :=
  rounds cost quantum (fuel cost items) (group key items).order (group key items).queues fun _ => 0

variable {key cost}

variable (items : List α)

lemma group_concat (a : α) : group key (items ++ [a]) = (group key items).add key a := by
  simp [group]

lemma queues_group (k : K) : (group key items).queues k = items.filter (key · = k) := by
  induction items using reverseRecOn with
  | nil => rfl
  | append_singleton items a ih =>
    rw [group_concat, filter_append, ← ih]
    by_cases hk : key a = k
    · subst hk
      simp [Groups.add]
    · simp [Groups.add, hk, update_of_ne (Ne.symm hk)]

lemma mem_order_group (k : K) : k ∈ (group key items).order ↔ (group key items).queues k ≠ [] := by
  induction items using reverseRecOn with
  | nil => simp [group]
  | append_singleton items a ih =>
    rw [group_concat]
    simp only [Groups.add]
    by_cases hk : k = key a
    · subst hk
      by_cases he : (group key items).queues (key a) = []
      · simp [he]
      · simp [he, ih]
    · rw [update_of_ne hk, ← ih]
      split_ifs <;> simp [hk]

lemma nodup_order_group : (group key items).order.Nodup := by
  induction items using reverseRecOn with
  | nil => exact nodup_nil
  | append_singleton items a ih =>
    rw [group_concat]
    simp only [Groups.add]
    split_ifs with he
    · have hk : key a ∉ (group key items).order := fun hk =>
        (mem_order_group items _).1 hk (isEmpty_iff.1 he)
      rw [← concat_eq_append]
      exact ih.concat hk
    · exact ih

/-- What the turns of the keys of `l` still cost, with one for the turn itself. -/
def need (cost : α → ℕ) (queues : K → List α) (deficit : K → ℕ) (l : List K) : ℕ :=
  (l.map fun k => ((queues k).map cost).sum - deficit k + 1).sum

omit [DecidableEq K] in
lemma need_congr {queues queues' : K → List α} {deficit deficit' : K → ℕ} {l : List K}
    (hq : ∀ k ∈ l, queues k = queues' k) (hd : ∀ k ∈ l, deficit k = deficit' k) :
    need cost queues deficit l = need cost queues' deficit' l := by
  refine congrArg sum (map_congr_left fun k hk => ?_)
  rw [hq k hk, hd k hk]

omit [DecidableEq K] in
lemma need_concat (queues : K → List α) (deficit : K → ℕ) (l : List K) (k : K) :
    need cost queues deficit (l ++ [k])
      = need cost queues deficit l + (((queues k).map cost).sum - deficit k + 1) := by
  simp [need]

lemma need_update_of_mem (queues : K → List α) (a : α) : ∀ {l : List K}, key a ∈ l → l.Nodup →
    need cost (update queues (key a) (queues (key a) ++ [a])) (fun _ => 0) l
      = need cost queues (fun _ => 0) l + cost a
  | k :: l, hk, hl => by
    obtain ⟨hkl, hl⟩ := nodup_cons.1 hl
    simp only [need, map_cons, sum_cons]
    by_cases ha : key a = k
    · subst ha
      have hr : need cost (update queues (key a) (queues (key a) ++ [a])) (fun _ => 0) l
          = need cost queues (fun _ => 0) l :=
        need_congr (fun j hj => update_of_ne (ne_of_mem_of_not_mem hj hkl) _ _) fun _ _ => rfl
      simp only [need] at hr
      rw [hr, update_self, map_append, sum_append]
      simp only [map_cons, map_nil, sum_cons, sum_nil, Nat.sub_zero]
      omega
    · have hr := need_update_of_mem queues a ((mem_cons.1 hk).resolve_left ha) hl
      simp only [need] at hr
      rw [hr, update_of_ne (Ne.symm ha)]
      omega

lemma need_group_le (items : List α) :
    need cost (group key items).queues (fun _ => 0) (group key items).order ≤ fuel cost items := by
  induction items using reverseRecOn with
  | nil => exact Nat.zero_le _
  | append_singleton items a ih =>
    have hf : fuel cost (items ++ [a]) = fuel cost items + cost a + 1 := by
      simp only [fuel, map_append, sum_append, length_append, map_cons,
        map_nil, sum_singleton, length_singleton]
      omega
    rw [group_concat, hf]
    simp only [Groups.add]
    split_ifs with he
    · have hn := isEmpty_iff.1 he
      have hk : key a ∉ (group key items).order := fun hk => (mem_order_group items _).1 hk hn
      have hr : need cost (update (group key items).queues (key a)
          ((group key items).queues (key a) ++ [a])) (fun _ => 0) (group key items).order
          = need cost (group key items).queues (fun _ => 0) (group key items).order :=
        need_congr (fun j hj => update_of_ne (ne_of_mem_of_not_mem hj hk) _ _) fun _ _ => rfl
      rw [need_concat, hr]
      simp only [update_self, hn, nil_append, map_cons, map_nil, sum_singleton, Nat.sub_zero]
      omega
    · rw [need_update_of_mem _ a ((mem_order_group items _).2 fun h => he (by rw [h]; rfl))
        (nodup_order_group items)]
      omega

lemma serve_spec (cost : α → ℕ) : ∀ d q,
    (serve cost d q).1 ++ (serve cost d q).2.1 = q ∧
    (serve cost d q).2.2 + ((serve cost d q).1.map cost).sum = d ∧
    ((serve cost d q).2.1 ≠ [] → (serve cost d q).2.2 < ((serve cost d q).2.1.map cost).sum)
  | d, [] => by simp [serve]
  | d, a :: q => by
    unfold serve
    split_ifs with hd
    · refine ⟨rfl, by simp, fun _ => ?_⟩
      simp only [map_cons, sum_cons]
      omega
    · obtain ⟨h1, h2, h3⟩ := serve_spec cost (d - cost a) q
      refine ⟨by simp [h1], ?_, h3⟩
      simp only [map_cons, sum_cons]
      omega

/-- With turns for all that waits, every key gets its items out in order. -/
theorem filter_rounds {quantum : ℕ} (hq : 0 < quantum) : ∀ (fuel : ℕ) (active : List K)
    (queues : K → List α) (deficit : K → ℕ), active.Nodup → (∀ k, k ∉ active → queues k = []) →
    (∀ k, ∀ a ∈ queues k, key a = k) → need cost queues deficit active ≤ fuel →
    ∀ k, (rounds cost quantum fuel active queues deficit).filter (key · = k) = queues k
  | 0, [], _, _, _, ho, _, _, k => (ho k not_mem_nil).symm
  | 0, _ :: _, _, _, _, _, _, hn, _ => by
    simp only [need, map_cons, sum_cons] at hn
    omega
  | _ + 1, [], _, _, _, ho, _, _, k => (ho k not_mem_nil).symm
  | fuel + 1, k :: active, queues, deficit, hnd, ho, hky, hn, j => by
    obtain ⟨hk, hnd⟩ := nodup_cons.1 hnd
    have hp : ∀ i, i ∉ active → i ≠ k → queues i = [] := fun i hi hik =>
      ho i (by simp [hi, hik])
    have hc : need cost queues deficit (k :: active)
        = ((queues k).map cost).sum - deficit k + 1 + need cost queues deficit active := rfl
    unfold rounds
    split_ifs with he
    · -- an empty queue is passed over
      refine filter_rounds hq fuel active queues deficit hnd (fun i hi => ?_) hky (by omega) j
      by_cases hik : i = k
      · exact hik ▸ isEmpty_iff.1 he
      · exact hp i hi hik
    obtain ⟨hs, hpd, hsh⟩ := serve_spec cost (deficit k + quantum) (queues k)
    set r := serve cost (deficit k + quantum) (queues k) with hr
    have hk' : ∀ i, ∀ a ∈ update queues k r.2.1 i, key a = i := by
      intro i a ha
      by_cases hik : i = k
      · subst hik
        rw [update_self] at ha
        exact hky i a (hs ▸ mem_append_right _ ha)
      · rw [update_of_ne hik] at ha
        exact hky i a ha
    have hsm : ∀ d, need cost (update queues k r.2.1) (update deficit k d)
        active = need cost queues deficit active := fun d => need_congr
      (fun i hi => update_of_ne (ne_of_mem_of_not_mem hi hk) _ _)
      fun i hi => update_of_ne (ne_of_mem_of_not_mem hi hk) _ _
    -- the served items are all of key `k`
    have hj : r.1.filter (key · = j) ++ update queues k r.2.1 j = queues j := by
      have hal : ∀ a ∈ r.1, key a = k := fun a ha =>
        hky k a (hs ▸ mem_append_left _ ha)
      by_cases hjk : j = k
      · subst hjk
        rw [update_self, filter_eq_self.2 fun a ha => by simp [hal a ha], hs]
      · rw [update_of_ne hjk, filter_eq_nil_iff.2 fun a ha => by
          simp [hal a ha, Ne.symm hjk], nil_append]
    simp only
    split_ifs with hd
    · rw [filter_append, filter_rounds hq fuel active _ _ hnd (fun i hi => ?_) hk'
        (by rw [hsm]; omega) j, hj]
      by_cases hik : i = k
      · rw [hik, update_self, isEmpty_iff.1 hd]
      · rw [update_of_ne hik, hp i hi hik]
    have hrs := hsh fun h => hd (isEmpty_iff.2 h)
    have hsu : ((queues k).map cost).sum = (r.1.map cost).sum + (r.2.1.map cost).sum := by
      rw [← hs, map_append, sum_append]
    have hn' : (active ++ [k]).Nodup := by
      rw [← concat_eq_append]
      exact hnd.concat hk
    -- the deficit grew by the quantum, so less is needed
    have hl : need cost (update queues k r.2.1) (update deficit k r.2.2)
        (active ++ [k]) ≤ fuel := by
      rw [need_concat, hsm, update_self, update_self]
      omega
    rw [filter_append, filter_rounds hq fuel (active ++ [k]) _ _ hn' (fun i hi => ?_) hk' hl j, hj]
    simp only [mem_append, mem_singleton, not_or] at hi
    rw [update_of_ne hi.2, hp i hi.1 hi.2]

lemma filter_schedule {quantum : ℕ} (hq : 0 < quantum) (items : List α) (k : K) :
    (schedule key cost quantum items).filter (key · = k) = items.filter (key · = k) := by
  rw [schedule, filter_rounds hq _ _ _ _ (nodup_order_group items) (fun j hj => ?_)
    (fun j a ha => ?_) (need_group_le items) k, queues_group]
  · exact not_ne_iff.1 fun h => hj ((mem_order_group items j).2 h)
  · rw [queues_group] at ha
    simpa using (mem_filter.1 ha).2

lemma queues_head_group {items : List α} (h : (group key items).order.length < 2) :
    ((group key items).order.head?.map (group key items).queues).getD [] = items := by
  have hm : ∀ a ∈ items, key a ∈ (group key items).order := fun a ha => by
    rw [mem_order_group, queues_group]
    exact ne_nil_of_mem (mem_filter.2 ⟨ha, by simp⟩)
  rcases ho : (group key items).order with _ | ⟨k, _ | ⟨_, _⟩⟩
  · rw [ho] at hm
    exact (eq_nil_iff_forall_not_mem.2 fun a ha => not_mem_nil (hm a ha)).symm
  · rw [ho] at hm
    simp only [head?_cons, Option.map_some, Option.getD_some, queues_group]
    exact filter_eq_self.2 fun a ha => by simpa using hm a ha
  · rw [ho] at h
    exact absurd h (by simp)

end RoundRobin
