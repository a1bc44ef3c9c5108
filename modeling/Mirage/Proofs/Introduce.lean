import Mirage.Lib.Runs
import Mirage.Onion.Introduce

/-!
# One acceptance for each introduction

The cache counts its window from the moment of acceptance, and freshness counts from the timestamp.
-/

namespace Mirage.Onion

open Maps Runs Words List

variable {last : ℕ}

namespace Reception

variable {S : SealSuite} {svc : Service} {r : Reception} {c : IntroduceCall}

/-- An introduction that opens and is fresh has its timestamp in a second that has passed. -/
def Past (S : SealSuite) (svc : Service) (c : IntroduceCall) : Prop :=
  ∀ intro ∈ (openIntroduce S c.sealed svc.x25519Sk svc.ed25519Pk).toOption,
    intro.isFresh (unixAt svc.offset c.now) = true →
    intro.issuedAt.toNat < unixAt svc.offset c.now

instance (S : SealSuite) (svc : Service) (c : IntroduceCall) : Decidable (Past S svc c) :=
  Option.decidableForallMem (p := fun intro : Introduction =>
    intro.isFresh (unixAt svc.offset c.now) = true →
    intro.issuedAt.toNat < unixAt svc.offset c.now) _

/-- What was accepted is still in the cache, or too old to be fresh. -/
structure Remembers (S : SealSuite) (svc : Service) (last : ℕ) (r : Reception) : Prop where
  time : ∀ x t, (x, t) ∈ r.accepted → t ≤ last
  opens : ∀ x t, (x, t) ∈ r.accepted →
    ∃ intro, openIntroduce S x svc.x25519Sk svc.ed25519Pk = .ok intro ∧
      intro.issuedAt.toNat < unixAt svc.offset t
  seen : ∀ x t, (x, t) ∈ r.accepted →
    r.state.seen.lookup (replayKey S x) = some t ∨ replayTtl ≤ last - t

/-- A call prunes the cache, and takes in what opens, is fresh and is new. -/
theorem step_cases : r.step S svc c = { r with state := r.state.prune c.now } ∨
      (∃ intro, openIntroduce S c.sealed svc.x25519Sk svc.ed25519Pk = .ok intro ∧
        intro.isFresh (unixAt svc.offset c.now) = true) ∧
      (r.state.prune c.now).seen.lookup (replayKey S c.sealed) = none ∧
      r.step S svc c =
        ⟨⟨(r.state.prune c.now).seen.insert (replayKey S c.sealed) c.now⟩,
          (c.sealed, c.now) :: r.accepted⟩ := by
  unfold step ServiceState.acceptSealedIntroduce
  by_cases hs : ((r.state.prune c.now).seen.lookup (replayKey S c.sealed)).isSome = true
  · rw [if_pos hs]
    exact .inl rfl
  rw [if_neg hs]
  cases ho : openIntroduce S c.sealed svc.x25519Sk svc.ed25519Pk with
  | error e => exact .inl rfl
  | ok intro =>
    dsimp only
    by_cases hf : intro.isFresh (unixAt svc.offset c.now) = true
    · rw [if_pos hf]
      exact .inr ⟨⟨intro, rfl, hf⟩, by simpa using hs, rfl⟩
    · rw [if_neg hf]
      exact .inl rfl

variable {t : ℕ} {intro : Introduction}

lemma Remembers.prune (h : Remembers S svc last r) (hle : last ≤ c.now) {x : Bytes}
    (hx : (x, t) ∈ r.accepted) :
    (r.state.prune c.now).seen.lookup (replayKey S x) = some t ∨ replayTtl ≤ c.now - t := by
  rcases h.seen x t hx with hl | ho
  · by_cases hy : c.now - t < replayTtl
    · unfold ServiceState.prune
      rw [lookup_retain, hl]
      simp [hy]
    · exact .inr (Nat.not_lt.1 hy)
  · exact .inr (by omega)

lemma not_isFresh_of_forgotten {offset now : ℕ} (hp : intro.issuedAt.toNat < unixAt offset t)
    (ho : replayTtl ≤ now - t) : intro.isFresh (unixAt offset now) = false := by
  have hd := Nat.div_mul_le_self (offset + t) (10 ^ 9)
  have hm := Nat.lt_div_mul_add (a := offset + now) (b := 10 ^ 9) (by norm_num)
  unfold unixAt at hp ⊢
  unfold replayTtl introduceValiditySecs at ho
  refine decide_eq_false fun hf => ?_
  generalize (offset + now) / 10 ^ 9 = b at *
  generalize intro.issuedAt.toNat = i at *
  have hmx : b - i ≤ 120 := (Nat.sub_le_sub_right (le_max_left b i) _).trans
    ((Nat.sub_le_sub_left (min_le_right b i) _).trans hf)
  omega

lemma Remembers.unrepeated (h : Remembers S svc last r) (hle : last ≤ c.now)
    (ho : openIntroduce S c.sealed svc.x25519Sk svc.ed25519Pk = .ok intro)
    (hf : intro.isFresh (unixAt svc.offset c.now) = true)
    (hn : (r.state.prune c.now).seen.lookup (replayKey S c.sealed) = none) :
    c.sealed ∉ r.accepted.map Prod.fst := by
  intro hm
  obtain ⟨⟨x, t⟩, hx, rfl⟩ := mem_map.1 hm
  rcases h.prune hle hx with hl | hol
  · rw [hn] at hl
    cases hl
  obtain ⟨intro', ho', hp⟩ := h.opens _ t hx
  obtain rfl := Except.ok.inj (ho.symm.trans ho')
  rw [not_isFresh_of_forgotten hp hol] at hf
  cases hf

lemma Remembers.step (h : Remembers S svc last r) (hle : last ≤ c.now) (hp : Past S svc c) :
    Remembers S svc c.now (r.step S svc c) := by
  rcases step_cases with heq | ⟨⟨intro, ho, hf⟩, hn, heq⟩
  · rw [heq]
    exact ⟨fun x t hx => (h.time x t hx).trans hle, h.opens, fun x t hx => h.prune hle hx⟩
  rw [heq]
  refine ⟨fun x t hx => ?_, fun x t hx => ?_, fun x t hx => ?_⟩
  · rcases mem_cons.1 hx with hx | hx
    · cases hx
      exact le_rfl
    · exact (h.time x t hx).trans hle
  · rcases mem_cons.1 hx with hx | hx
    · cases hx
      exact ⟨intro, ho, hp intro (by rw [ho]; rfl) hf⟩
    · exact h.opens x t hx
  · rcases mem_cons.1 hx with hx | hx
    · cases hx
      exact .inl (AList.lookup_insert _)
    · refine (h.prune hle hx).imp_left fun hl => ?_
      -- Another string with the same key would have been a replay.
      have hne : replayKey S x ≠ replayKey S c.sealed := by
        intro heq
        rw [heq, hn] at hl
        cases hl
      exact (AList.lookup_insert_ne hne).trans hl

lemma nodup_run : ∀ {r : Reception} {calls : List IntroduceCall} {last : ℕ},
    Remembers S svc last r → (r.accepted.map Prod.fst).Nodup →
    (∀ c ∈ calls, last ≤ c.now) → calls.Pairwise (fun c c' => c.now ≤ c'.now) →
    (∀ c ∈ calls, Past S svc c) →
    ((run (step S svc) r calls).accepted.map Prod.fst).Nodup
  | _, [], _, _, hn, _, _, _ => hn
  | r, c :: calls, last, h, hn, hle, hm, hps => by
    have hl := hle c mem_cons_self
    have hp := hps c mem_cons_self
    obtain ⟨hnx, hm⟩ := pairwise_cons.1 hm
    rw [run_cons]
    refine nodup_run (h.step hl hp) ?_ hnx hm fun c' hc' => hps c' (mem_cons_of_mem c hc')
    rcases step_cases with heq | ⟨⟨intro, ho, hf⟩, hnw, heq⟩
    · rw [heq]
      exact hn
    · rw [heq]
      exact nodup_cons.2 ⟨h.unrepeated hl ho hf hnw, hn⟩

/-- If every introduction comes after the second of its timestamp, none is accepted twice. -/
theorem accepted_once (S : SealSuite) (svc : Service) (calls : List IntroduceCall)
    (hmono : calls.Pairwise fun c c' => c.now ≤ c'.now) (hpast : ∀ c ∈ calls, Past S svc c)
    (x : Bytes) : ((run (step S svc) new calls).accepted.map Prod.fst).count x ≤ 1 := by
  have hnw : Remembers S svc 0 new := ⟨nofun, nofun, nofun⟩
  have hn := nodup_run hnw List.nodup_nil (fun _ _ => Nat.zero_le _) hmono hpast
  exact List.nodup_iff_count_le_one.1 hn x

def plainSuite : SealSuite where
  blake3 b := vec 32 (b.drop 132)
  publicKey sk := sk
  diffieHellman _ pk := pk
  encrypt _ _ _ pt := some (pt ++ List.replicate tagLen 0)
  decrypt _ _ _ ct := if ct.drop plaintextLen = List.replicate tagLen 0 then
    some (ct.take plaintextLen) else none

def sealedAt (t : UInt64) : Bytes :=
  (sealIntroduce plainSuite ⟨.replicate 32 1, .replicate 32 2, t, .replicate 32 3⟩ (.replicate 32 4)
    (.replicate 32 5) (.replicate 12 6)).toOption.getD []

def plainService : Service := ⟨.replicate 32 4, .replicate 32 3, 0⟩

def callsAt (t : UInt64) (seconds : List ℕ) : List IntroduceCall :=
  seconds.map fun n => ⟨sealedAt t, n * 10 ^ 9⟩

theorem accepted_once_replayed :
    (run (step plainSuite plainService) new (callsAt 1000 [1001, 1100, 1121])).accepted =
        [(sealedAt 1000, 1001 * 10 ^ 9)] ∧ ((run (step plainSuite plainService) new
        (callsAt 1000 [1001, 1100, 1121])).accepted.map Prod.fst).count (sealedAt 1000) ≤ 1 := by
  exact ⟨by decide +kernel, accepted_once plainSuite plainService _ (by decide +kernel)
    (by decide +kernel) _⟩

/-- The client's clock is two minutes ahead: its introduction is accepted three times. -/
theorem early_introduction_returns :
    (callsAt 1120 [1000, 1120, 1240]).Pairwise (fun c c' => c.now ≤ c'.now) ∧
      ((run (step plainSuite plainService) new
        (callsAt 1120 [1000, 1120, 1240])).accepted.map Prod.fst).count (sealedAt 1120) = 3 := by
  decide +kernel

end Reception

end Mirage.Onion
