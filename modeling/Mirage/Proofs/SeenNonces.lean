import Mirage.Lib.Runs
import Mirage.Transport.Shadowsocks

/-!
# What the set of seen nonces forgets

The queue has the nonces of the set in the order in which they came (`Tidy`).
-/

namespace Mirage.Transport.SeenNonceSet

open Words Maps Runs
open List hiding Vector

variable {s : SeenNonceSet} {x y : Bytes32} {ttl cap now t n : ℕ}

/-- The queue has the nonces of the map, in the order they came. -/
structure Tidy (ttl cap : ℕ) (s : SeenNonceSet) : Prop where
  pos : 0 < cap
  nodup : s.order.Nodup
  mem : ∀ k, k ∈ s.order ↔ k ∈ s.map
  fits : s.order.length ≤ cap
  ttl : s.ttl = ttl
  capacity : s.capacity = cap

lemma tidy_withCapacity : Tidy ttl (max cap 1) (withCapacity ttl cap) :=
  ⟨by omega, nodup_nil, fun k => iff_of_false not_mem_nil (AList.notMem_empty k),
    Nat.zero_le _, rfl, rfl⟩

namespace Tidy

lemma size_eq (h : s.Tidy ttl cap) : size s.map = s.order.length := by
  have hp : s.map.keys.Perm s.order :=
    (perm_ext_iff_of_nodup s.map.keys_nodup h.nodup).2 fun k => (h.mem k).symm
  rw [← hp.length_eq, AList.keys, List.keys, length_map, size]

lemma lookup_eq_none (h : s.Tidy ttl cap) {k : Bytes32} (hk : k ∉ s.order) :
    s.map.lookup k = none :=
  AList.lookup_eq_none.2 fun hm => hk ((h.mem k).2 hm)

lemma makeRoom (h : s.Tidy ttl cap) : ∃ map,
    (if s.capacity ≤ size s.map then popFront s.map s.order else (s.map, s.order)) =
        (map, s.order.drop (s.order.length + 1 - cap)) ∧
      ∀ k, map.lookup k =
        if k ∈ s.order.drop (s.order.length + 1 - cap) then s.map.lookup k else none := by
  have hf := h.fits
  have hp := h.pos
  rw [h.size_eq, h.capacity]
  split_ifs with hfl
  · obtain ⟨v, rest, ho⟩ := exists_cons_of_length_pos (l := s.order) (by omega)
    obtain ⟨hv, -⟩ := nodup_cons.1 (ho ▸ h.nodup)
    have hm : v ∈ s.map := (h.mem v).1 (ho ▸ mem_cons_self)
    rw [show s.order.length + 1 - cap = 1 by omega, ho, drop_one, tail_cons, popFront, if_pos hm]
    refine ⟨_, rfl, fun k => ?_⟩
    rw [lookup_erase_eq_ite]
    split_ifs with hk hr hr
    · exact absurd hr (hk ▸ hv)
    · rfl
    · rfl
    · exact h.lookup_eq_none (by simp [ho, hk, hr])
  · rw [show s.order.length + 1 - cap = 0 by omega]
    refine ⟨_, rfl, fun k => ?_⟩
    split_ifs with hk
    · rfl
    · exact h.lookup_eq_none hk

/-- A new nonce goes to the end of the queue, and those in front make room. -/
theorem takes (h : s.Tidy ttl cap) (now : ℕ) (hx : s.map.lookup x = none) :
    ∃ s', s.checkAndInsert x now = (true, s') ∧ s'.Tidy ttl cap ∧
      s'.order = s.order.drop (s.order.length + 1 - cap) ++ [x] ∧
      ∀ k, s'.map.lookup k =
        if k = x then some now else if k ∈ s'.order then s.map.lookup k else none := by
  obtain ⟨map, hr, hl⟩ := h.makeRoom
  have hxo : x ∉ s.order := fun hm => AList.lookup_eq_none.1 hx ((h.mem x).1 hm)
  simp only [checkAndInsert, hx, hr]
  refine ⟨_, rfl, ⟨h.pos, ?_, fun k => ?_, ?_, h.ttl, h.capacity⟩, rfl, fun k => ?_⟩
  · simpa [nodup_append, h.nodup.sublist (drop_sublist _ _)] using
      fun k hk => ne_of_mem_of_not_mem (mem_of_mem_drop hk) hxo
  · rw [AList.mem_insert, ← AList.lookup_isSome, hl, mem_append, mem_singleton, or_comm]
    refine or_congr_right ?_
    split_ifs with hk
    · simpa [hk, AList.lookup_isSome] using (h.mem k).1 (mem_of_mem_drop hk)
    · simpa using hk
  · have := h.pos
    simp only [length_append, length_drop, length_singleton]
    omega
  · rw [lookup_insert_eq_ite, hl]
    split_ifs <;> simp_all

lemma renew (h : s.Tidy ttl cap) (hx : s.map.lookup x = some t) :
    Tidy ttl cap { s with map := s.map.insert x now } := by
  refine ⟨h.pos, h.nodup, fun k => ?_, h.fits, h.ttl, h.capacity⟩
  rw [h.mem, AList.mem_insert, or_iff_right_of_imp]
  rintro rfl
  exact mem_of_lookup hx

lemma reap (h : s.Tidy ttl cap) : (s.reap now).2.Tidy ttl cap := by
  refine ⟨h.pos, h.nodup.filter _, fun k => ?_, (length_filter_le _ _).trans h.fits, h.ttl,
    h.capacity⟩
  simp only [SeenNonceSet.reap, mem_filter, decide_eq_true_eq, h.mem, and_iff_right_iff_imp]
  exact mem_of_mem_retain

lemma check (h : s.Tidy ttl cap) : (s.checkAndInsert x now).2.Tidy ttl cap := by
  rcases hl : s.map.lookup x with _ | seenAt
  · obtain ⟨s', hs', ht, -⟩ := h.takes now hl
    rwa [hs']
  simp only [checkAndInsert, hl]
  split_ifs
  · exact h
  · exact h.renew hl

end Tidy

lemma tidy_call (s : SeenNonceSet) (c : SeenCall) (h : s.Tidy ttl cap) (_ : True) :
    (s.call c).Tidy ttl cap := by
  cases c with
  | checkAndInsert nonce now => exact h.check
  | reap now => exact h.reap

/-- The nonce is in the set with at most `n` behind it, or has made room. -/
def Held (x : Bytes32) (cap t n : ℕ) (s : SeenNonceSet) : Prop :=
  cap ≤ n ∨ s.map.lookup x = some t ∧
    ∃ front behind, s.order = front ++ x :: behind ∧ behind.length ≤ n

variable (h : s.Tidy ttl cap)
include h

lemma refused (hx : s.map.lookup x = some t) (hn : now ≤ t + ttl) :
    s.checkAndInsert x now = (false, s) := by
  simp only [checkAndInsert, hx, h.ttl, if_pos (show now - t ≤ ttl by omega)]

lemma Held.check (hx : s.Held x cap t n) (y : Bytes32) (hnw : now ≤ t + ttl) :
    (s.checkAndInsert y now).2.Held x cap t
      (if y ≠ x ∧ (s.checkAndInsert y now).1 then n + 1 else n) := by
  rcases hx with hn | ⟨hx, front, behind, hs, hln⟩
  · exact .inl (by split_ifs <;> omega)
  by_cases hyx : y = x
  · subst hyx
    rw [refused h hx hnw, if_neg (by simp)]
    exact .inr ⟨hx, front, behind, hs, hln⟩
  rcases hl : s.map.lookup y with _ | seenAt
  · obtain ⟨s', hs', -, ho, hlk⟩ := h.takes now hl
    have hf := h.fits
    rw [hs', if_pos ⟨hyx, rfl⟩]
    rw [hs] at ho hf
    simp only [length_append, length_cons] at ho hf
    by_cases hn : cap ≤ n + 1
    · exact .inl hn
    -- one that is in front of it leaves
    rw [drop_append_of_le_length (by omega), append_assoc, cons_append] at ho
    refine .inr ⟨?_, _, _, ho, by simpa using hln⟩
    rw [hlk, if_neg (Ne.symm hyx), if_pos (by simp [ho]), hx]
  · simp only [checkAndInsert, hl]
    split_ifs with hag ha ha
    · simp at ha
    · exact .inr ⟨hx, front, behind, hs, hln⟩
    · exact .inr ⟨by rw [AList.lookup_insert_ne (Ne.symm hyx), hx], front, behind, hs, by omega⟩
    · exact absurd ⟨hyx, rfl⟩ ha

lemma Held.reap (hx : s.Held x cap t n) (hnw : now ≤ t + ttl) : (s.reap now).2.Held x cap t n := by
  rcases hx with hn | ⟨hx, front, behind, hs, hl⟩
  · exact .inl hn
  have hk : (retain (now - · ≤ s.ttl) s.map).lookup x = some t := by
    rw [lookup_retain, hx, h.ttl]
    exact Option.filter_some_pos (decide_eq_true (by omega))
  have hm : x ∈ retain (now - · ≤ s.ttl) s.map := mem_of_lookup hk
  have ho : (s.reap now).2.order = s.order.filter (· ∈ retain (now - · ≤ s.ttl) s.map) := rfl
  rw [hs, filter_append, filter_cons_of_pos (by exact decide_eq_true hm)] at ho
  exact .inr ⟨hk, _, _, ho, (length_filter_le _ _).trans hl⟩

omit h in
lemma held_run : ∀ (cs : List SeenCall) (s : SeenNonceSet) (n : ℕ), s.Tidy ttl cap →
    s.Held x cap t n → (∀ c ∈ cs, c.now ≤ t + ttl) →
      (run call s cs).Held x cap t (n + s.admitted x cs)
  | [], _, _, _, hx, _ => hx
  | .checkAndInsert y now :: cs, s, n, h, hx, hcs => by
    obtain ⟨hn, hcs⟩ := forall_mem_cons.1 hcs
    have hr := held_run cs _ _ h.check (hx.check h y (show now ≤ _ from hn)) hcs
    simp only [admitted]
    split_ifs at hr ⊢
    · rwa [Nat.add_right_comm] at hr
    · exact hr
  | .reap now :: cs, s, n, h, hx, hcs => by
    obtain ⟨hn, hcs⟩ := forall_mem_cons.1 hcs
    exact held_run cs _ n h.reap (hx.reap h hn) hcs

omit h in
/-- A nonce is refused for its lifetime, unless as many others come as there is room for. -/
theorem forgets_oldest_first (ttl capacity : ℕ) (before : List SeenCall) :
    let s := run call (withCapacity ttl capacity) before
    ((∀ k, k ∈ s.order ↔ k ∈ s.map) ∧ size s.map ≤ max capacity 1) ∧
    ∀ x t between t', x ∉ s.map → (∀ c ∈ between, c.now ≤ t') → t' ≤ t + ttl →
      (s.checkAndInsert x t).1 = true ∧
      (((run call (s.checkAndInsert x t).2 between).checkAndInsert x t').1 = false ∨
        max capacity 1 ≤ (s.checkAndInsert x t).2.admitted x between) := by
  intro s
  have h : s.Tidy ttl (max capacity 1) :=
    inv_run tidy_call _ before tidy_withCapacity (along_true _ _)
  refine ⟨⟨h.mem, h.size_eq ▸ h.fits⟩, fun x t between t' hx hb ht => ?_⟩
  obtain ⟨s', hs', h', ho, hl⟩ := h.takes t (AList.lookup_eq_none.2 hx)
  have hh : s'.Held x (max capacity 1) t 0 :=
    .inr ⟨by rw [hl, if_pos rfl], _, [], ho, le_rfl⟩
  have hr := held_run between s' 0 h' hh fun c hc => (hb c hc).trans ht
  rw [hs']
  refine ⟨rfl, hr.symm.imp (fun hin => ?_) fun hf => by simpa using hf⟩
  rw [refused (inv_run tidy_call s' between h' (along_true _ _)) hin.1 ht]

omit h in
/-- One that is taken in again in its old place leaves when a single other one comes. -/
theorem renewed_leaves_early :
    let x : Bytes32 := .replicate 32 1
    let s := run call (withCapacity 10 2) [.checkAndInsert x 0, .checkAndInsert (.replicate 32 2) 5]
    let between := [.checkAndInsert (.replicate 32 3) 21]
    (s.checkAndInsert x 20).1 = true ∧
      ((run call (s.checkAndInsert x 20).2 between).checkAndInsert x 22).1 = true ∧
      (s.checkAndInsert x 20).2.admitted x between = 1 := by
  decide +kernel

end Mirage.Transport.SeenNonceSet
