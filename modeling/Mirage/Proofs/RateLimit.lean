import Mirage.Bridge.RateLimit

/-!
# Slots and guards

A bucket counts the guards that are held for its address (`Exact`), and only an idle one makes room.
-/

namespace Mirage.Bridge

open Maps Capped Runs AList Buckets Option List

variable {buckets : Buckets} {walk : Walk IpAddr Bucket} {ip ip' : IpAddr} {now : ℕ}
  {hasToken : Bool} {limiter : PerPeerLimiter} {s : Guarded}

lemma Buckets.concurrent_insert (b : Bucket) : concurrent (buckets.insert ip b) ip' =
    if ip' = ip then b.concurrent else buckets.concurrent ip' := by
  rw [concurrent, lookup_insert_eq_ite]
  split_ifs <;> rfl

namespace PerPeerLimiter

lemma oldestIdle_eq_some {l : List (Σ _ : IpAddr, Bucket)} (h : oldestIdle l = some ip) :
    ∃ b, ⟨ip, b⟩ ∈ l ∧ b.concurrent = 0 := by
  obtain ⟨b, hm, -⟩ := oldest_eq_some h
  rw [mem_filter, decide_eq_true_eq] at hm
  exact ⟨b, hm⟩

lemma victim_eq_some (h : victim walk buckets = some ip) :
    ∃ b, buckets.lookup ip = some b ∧ b.concurrent = 0 := by
  rcases or_eq_some_iff.1 h with hs | ⟨-, ha⟩
  · obtain ⟨b, hm, hi⟩ := oldestIdle_eq_some hs
    exact ⟨b, mem_iter.1 (mem_of_mem_take hm), hi⟩
  · obtain ⟨b, hm, hi⟩ := oldestIdle_eq_some ha
    exact ⟨b, mem_iter.1 hm, hi⟩

lemma victim_eq_none (h : victim walk buckets = none) {b : Bucket}
    (hb : buckets.lookup ip = some b) : 0 < b.concurrent := by
  obtain ⟨-, ha⟩ := or_eq_none_iff.1 h
  have hi := filter_eq_nil_iff.1 (oldest_eq_none.1 ha) ⟨ip, b⟩ (mem_iter.2 hb)
  simp only [decide_eq_true_eq] at hi
  omega

/-- No bucket can make room; or the counts stay, but for a slot that is granted. -/
theorem tryAcquire_cases (limiter : PerPeerLimiter) (walk : Walk IpAddr Bucket) (ip : IpAddr)
    (now : ℕ) (hasToken : Bool) :
    (ip ∉ limiter.buckets ∧ victim walk limiter.buckets = none ∧
      limiter.tryAcquire walk ip now hasToken = (.error .noRoom, limiter)) ∨
    ∃ buckets : Buckets, buckets.concurrent = limiter.buckets.concurrent ∧
      (size limiter.buckets ≤ limiter.maxEntries →
        size buckets ≤ limiter.maxEntries ∧ Fits limiter.maxEntries buckets ip) ∧
      ((∃ r, r ≠ .noRoom ∧ limiter.tryAcquire walk ip now hasToken = (.error r,
          { limiter with buckets := buckets.insert ip ⟨now, buckets.concurrent ip⟩ })) ∨
        (0 < limiter.maxConcurrent → buckets.concurrent ip < limiter.maxConcurrent) ∧
          limiter.tryAcquire walk ip now hasToken = (.ok (),
            { limiter with buckets := buckets.insert ip ⟨now, buckets.concurrent ip + 1⟩ })) := by
  have hn (buckets : Buckets) :
      ((buckets.lookup ip).getD ⟨now, 0⟩).concurrent = buckets.concurrent ip := by
    cases h : buckets.lookup ip <;> simp [concurrent, h]
  simp only [tryAcquire, hn]
  split
  · rename_i hr
    split_ifs at hr with hf
    exact .inl ⟨fun h => hf (.inr h), by simpa using hr, rfl⟩
  rename_i buckets hr
  refine .inr ⟨buckets, ?_, fun hc => ?_, ?_⟩
  · split_ifs at hr
    · cases hr
      rfl
    obtain ⟨v, hv, rfl⟩ := map_eq_some_iff.1 hr
    obtain ⟨b, hb, hi⟩ := victim_eq_some hv
    funext ip'
    rw [concurrent, lookup_erase_eq_ite]
    split_ifs with heq
    · rw [heq, concurrent, hb]
      exact hi.symm
    · rfl
  · split_ifs at hr with hf
    · cases hr
      exact ⟨hc, hf⟩
    obtain ⟨v, hv, rfl⟩ := map_eq_some_iff.1 hr
    obtain ⟨b, hb, -⟩ := victim_eq_some hv
    have hs := size_erase_of_some hb
    exact ⟨by omega, .inl (by omega)⟩
  · split_ifs with hm ht
    · exact .inl ⟨.concurrency, nofun, rfl⟩
    · exact .inl ⟨.rate, nofun, rfl⟩
    · exact .inr ⟨fun hp => not_le.1 fun hle => hm ⟨hp, hle⟩, rfl⟩

end PerPeerLimiter

namespace Guarded

/-- A bucket counts the guards that are held for its address. -/
structure Exact (maxConcurrent maxEntries : ℕ) (s : Guarded) : Prop where
  limits : s.limiter.maxConcurrent = maxConcurrent ∧ s.limiter.maxEntries = maxEntries
  count : ∀ ip, s.limiter.buckets.concurrent ip = s.guards.count ip
  size_le : size s.limiter.buckets ≤ maxEntries
  count_le : 0 < maxConcurrent → ∀ ip, s.guards.count ip ≤ maxConcurrent

variable {maxConcurrent maxEntries : ℕ}

lemma Exact.drop (h : Exact maxConcurrent maxEntries s) :
    Exact maxConcurrent maxEntries (s.step (.drop ip)) := by
  simp only [step]
  split_ifs with hl
  swap
  · exact h
  have hc := h.count ip
  have hp := count_pos_iff.2 hl
  rw [PerPeerLimiter.release]
  split
  · rename_i hb
    simp only [concurrent, hb, map_none, getD_none] at hc
    omega
  rename_i b hb
  simp only [concurrent, hb, map_some, getD_some] at hc
  refine ⟨h.limits, fun ip' => ?_, ?_, fun hm ip' => ?_⟩
  · rw [concurrent_insert]
    by_cases heq : ip' = ip
    · simp [heq, hc]
    · rw [if_neg heq, h.count, count_erase_of_ne heq]
  · rw [size_insert_of_some hb]
    exact h.size_le
  · exact (erase_sublist.count_le ip').trans (h.count_le hm ip')

lemma Exact.acquire (h : Exact maxConcurrent maxEntries s) :
    Exact maxConcurrent maxEntries (s.step (.acquire walk ip now hasToken)) := by
  obtain ⟨hm, he⟩ := h.limits
  rcases s.limiter.tryAcquire_cases walk ip now hasToken with
    ⟨-, -, heq⟩ | ⟨buckets, hs, hf, ⟨r, -, heq⟩ | ⟨hr, heq⟩⟩
  · simp only [step, heq]
    exact h
  · obtain ⟨hsz, hft⟩ := hf (he ▸ h.size_le)
    simp only [step, heq]
    refine ⟨h.limits, fun ip' => ?_, he ▸ size_insert_of_fits hft hsz, h.count_le⟩
    rw [concurrent_insert, hs, ← h.count]
    split_ifs with hip
    · rw [hip]
    · rfl
  · obtain ⟨hsz, hft⟩ := hf (he ▸ h.size_le)
    rw [hs, h.count, hm] at hr
    simp only [step, heq]
    refine ⟨h.limits, fun ip' => ?_, he ▸ size_insert_of_fits hft hsz, fun hp ip' => ?_⟩
    · rw [concurrent_insert, hs, h.count, h.count]
      by_cases hip : ip' = ip
      · simp [hip]
      · rw [if_neg hip, count_cons_of_ne (Ne.symm hip)]
    · by_cases hip : ip' = ip
      · rw [hip, count_cons_self]
        exact hr hp
      · rw [count_cons_of_ne (Ne.symm hip)]
        exact h.count_le hp ip'

/-- The counts are those of the guards, and an address is refused only among buckets in use. -/
theorem slots_exact (maxConcurrent maxEntries : ℕ) (events : List GuardEvent) :
    let s := run step (start maxConcurrent maxEntries) events
    (∀ ip, s.limiter.buckets.concurrent ip = s.guards.count ip) ∧
      size s.limiter.buckets ≤ maxEntries ∧
      (0 < maxConcurrent → ∀ ip, s.guards.count ip ≤ maxConcurrent) ∧
      ∀ walk ip now hasToken,
        (s.limiter.tryAcquire walk ip now hasToken).1 = .error .noRoom →
        ip ∉ s.limiter.buckets ∧ ∀ ip' ∈ s.limiter.buckets, 0 < s.guards.count ip' := by
  intro s
  have h : Exact maxConcurrent maxEntries s := by
    refine inv_run (P := fun _ _ => True) (fun s e hs _ => ?_) _ events
      ⟨⟨rfl, rfl⟩, fun _ => rfl, Nat.zero_le _, fun _ _ => Nat.zero_le _⟩ (along_true _ events)
    cases e with
    | acquire walk ip now hasToken => exact hs.acquire
    | drop ip => exact hs.drop
  refine ⟨h.count, h.size_le, h.count_le, fun walk ip now hasToken hrf => ?_⟩
  rcases s.limiter.tryAcquire_cases walk ip now hasToken with
    ⟨hnw, hn, -⟩ | ⟨_, -, -, ⟨r, hr, heq⟩ | ⟨-, heq⟩⟩
  · refine ⟨hnw, fun ip' hm => ?_⟩
    obtain ⟨b, hb⟩ := mem_iff_lookup.1 hm
    have hp := PerPeerLimiter.victim_eq_none hn hb
    rwa [← h.count, concurrent, hb]
  · rw [heq] at hrf
    cases hrf
    exact absurd rfl hr
  · rw [heq] at hrf
    cases hrf

end Guarded

end Mirage.Bridge
