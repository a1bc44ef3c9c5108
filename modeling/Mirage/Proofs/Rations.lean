import Mirage.Bridge.Rations

/-!
# Rations of a token

What was revealed to a token is what its entry remembers (`Rationed`).
-/

namespace Mirage.Bridge

open Maps Capped Runs AList Discovery Words
open List hiding Vector

namespace CohortState

variable {known : List Announcement} {cursor most i : ℕ} {seen : Finset Bytes32}
  {acc : Finset Bytes32 × List Announcement} {s : CohortState} {c : CohortCall}

/-- What was picked is new, and at most `most`. -/
structure Picked (seen : Finset Bytes32) (most : ℕ)
    (acc : Finset Bytes32 × List Announcement) : Prop where
  nodup : (acc.2.map Announcement.bridgeEd25519Pk).Nodup
  mem : ∀ k, k ∈ acc.1 ↔ k ∈ seen ∨ k ∈ acc.2.map Announcement.bridgeEd25519Pk
  fresh : ∀ k ∈ acc.2.map Announcement.bridgeEd25519Pk, k ∉ seen
  card : acc.1.card = seen.card + acc.2.length
  length_le : acc.2.length ≤ most

lemma Picked.pick (h : Picked seen most acc) : Picked seen most (pick known cursor most acc i) := by
  rw [CohortState.pick]
  split
  · exact h
  rename_i a _
  split_ifs with hs
  · exact h
  push Not at hs
  obtain ⟨hlt, hn⟩ := hs
  have ho := mt (h.mem _).2 hn
  push Not at ho
  refine ⟨?_, fun k => ?_, fun k hk => ?_, ?_, ?_⟩
  · rw [map_append, map_singleton, nodup_append_comm]
    exact nodup_cons.2 ⟨ho.2, h.nodup⟩
  · simp only [Finset.mem_insert, h.mem, map_append, map_cons, map_nil, mem_append, mem_singleton]
    tauto
  · rw [map_append, mem_append, map_singleton, mem_singleton] at hk
    rcases hk with hk | rfl
    · exact h.fresh k hk
    · exact ho.1
  · simp [Finset.card_insert_of_notMem hn, h.card, Nat.add_assoc]
  · rw [length_append, length_singleton]
    exact hlt

def seenBy (perToken : AList fun _ : TokenId => PerTokenReveal) (token : TokenId) :
    Finset Bytes32 :=
  ((perToken.lookup token).map PerTokenReveal.seen).getD ∅

lemma seenBy_insert (per : AList fun _ : TokenId => PerTokenReveal) (token : TokenId)
    (e : PerTokenReveal) (token' : TokenId) :
    seenBy (per.insert token e) token' = if token' = token then e.seen else seenBy per token' := by
  rw [seenBy, lookup_insert_eq_ite]
  split_ifs <;> rfl

lemma jitter_isSome {j : UInt8} (h : j ≠ 255) (random : Option UInt8) :
    (jitter j random).isSome = true := by
  have hne : j + 1 ≠ 0 := fun h0 => h (by grind)
  rw [jitter]
  split_ifs <;> rfl

/-- A request is answered, and only what its own token has seen changes. -/
theorem pickForToken_eq (hjt : s.revealJitter ≠ 255)
    (hf : ∀ token ∈ c.tokenId, Fits cohortPerTokenTableCap s.perToken token) :
    ∃ out status s', s.pickForToken c = (some (out, status), s') ∧ s'.revealCap = s.revealCap ∧
      (out = [] ∧ s'.perToken = s.perToken ∨ ∃ token ∈ c.tokenId, ∃ seen,
        Picked (seenBy s.perToken token) (s.revealCap.toNat - (seenBy s.perToken token).card)
          (seen, out) ∧
        ∀ token', seenBy s'.perToken token' =
          if token' = token then seen else seenBy s.perToken token') := by
  rw [pickForToken]
  split_ifs
  · exact ⟨_, _, _, rfl, rfl, .inl ⟨rfl, rfl⟩⟩
  cases ht : c.tokenId with
  | none => exact ⟨_, _, _, rfl, rfl, .inl ⟨rfl, rfl⟩⟩
  | some token =>
    have hn (most : ℕ) :
        Picked (seenBy s.perToken token) most (seenBy s.perToken token, []) :=
      ⟨nodup_nil, by simp, by simp, by simp, Nat.zero_le _⟩
    simp only [makeRoom_of_fits (hf token ht)]
    rw [← seenBy]
    split_ifs
    · exact ⟨_, _, _, rfl, rfl, .inr ⟨token, rfl, _, hn _, seenBy_insert _ _ ⟨_, _⟩⟩⟩
    obtain ⟨jitter, hj⟩ := Option.isSome_iff_exists.1 (jitter_isSome hjt c.random)
    simp only [hj]
    generalize hm : min (max (c.maxN.toNat - jitter.toNat) 1)
      (s.revealCap.toNat - (seenBy s.perToken token).card) = most
    have hp : Picked (seenBy s.perToken token) most
        (run (CohortState.pick s.known s.rotation most) (seenBy s.perToken token, [])
          (range s.known.length)) :=
      inv_run (fun _ i h _ => h.pick) _ _ (hn _) (along_true _ _)
    have hle : most ≤ s.revealCap.toNat - (seenBy s.perToken token).card := by omega
    exact ⟨_, _, _, rfl, rfl, .inr ⟨token, rfl, _,
      { hp with length_le := hp.length_le.trans hle }, seenBy_insert _ _ ⟨_, _⟩⟩⟩

end CohortState

namespace Disclosure

open CohortState

variable {d : Disclosure} {c : CohortCall} {revealCap revealJitter : UInt8}

/-- The jitter can be drawn, and the token's entry is there or needs nobody else's place. -/
def HasRoom (d : Disclosure) (c : CohortCall) : Prop :=
  d.cohort.revealJitter ≠ 255 ∧
    ∀ token ∈ c.tokenId, Fits cohortPerTokenTableCap d.cohort.perToken token
deriving Decidable

/-- An entry has what was revealed to its token. -/
structure Rationed (revealCap : UInt8) (d : Disclosure) : Prop where
  cap : d.cohort.revealCap = revealCap
  nodup : d.revealed.Nodup
  mem : ∀ token k, (token, k) ∈ d.revealed ↔ k ∈ seenBy d.cohort.perToken token
  card_le : ∀ token, (seenBy d.cohort.perToken token).card ≤ revealCap.toNat

lemma Rationed.step (h : Rationed revealCap d) (hr : HasRoom d c) :
    Rationed revealCap (d.step c) := by
  obtain ⟨out, status, s', heq, hc, hs | ⟨token, ht, seen, hp, hsn⟩⟩ :=
    pickForToken_eq hr.1 hr.2
  · obtain ⟨rfl, hs⟩ := hs
    have hst : d.step c = ⟨s', d.revealed⟩ := by
      simp only [Disclosure.step, heq]
      split <;> simp_all
    rw [hst]
    exact ⟨hc.trans h.cap, h.nodup, fun _ _ => hs ▸ h.mem _ _, fun _ => hs ▸ h.card_le _⟩
  have hn : out.map (fun a => (token, a.bridgeEd25519Pk)) =
      (out.map Announcement.bridgeEd25519Pk).map (token, ·) := by simp
  simp only [Disclosure.step, heq, Option.mem_def.1 ht, hn]
  refine ⟨hc.trans h.cap, nodup_append.2 ⟨h.nodup, ?_, ?_⟩, fun token' k => ?_, fun token' => ?_⟩
  · exact hp.nodup.map fun _ _ hk => (Prod.mk.inj hk).2
  · rintro _ ho _ hm rfl
    obtain ⟨k, hk, rfl⟩ := mem_map.1 hm
    exact hp.fresh k hk ((h.mem token k).1 ho)
  · rw [mem_append, h.mem, hsn]
    split_ifs with ht'
    · rw [ht', hp.mem]
      simp
    · simp [Ne.symm ht']
  · rw [hsn]
    split_ifs
    · have hle := hp.length_le
      have hcr : seen.card = _ := hp.card
      have ho := h.card_le token
      rw [h.cap] at hle
      omega
    · exact h.card_le token'

lemma HasRoom.answers (h : HasRoom d c) : (d.cohort.pickForToken c).1 ≠ none := by
  obtain ⟨out, status, s', heq, -⟩ := pickForToken_eq h.1 h.2
  simp [heq]

/-- If no token loses its entry, each learns a key once, and no more keys than the cap. -/
theorem disclosure_rationed (known : List Announcement) (revealCap revealJitter : UInt8)
    (calls : List CohortCall) (h : Along step HasRoom (start known revealCap revealJitter) calls) :
    Along step (fun d c => (d.cohort.pickForToken c).1 ≠ none)
        (start known revealCap revealJitter) calls ∧
      (run step (start known revealCap revealJitter) calls).revealed.Nodup ∧
      ∀ token, (((run step (start known revealCap revealJitter) calls).revealed.filter
        fun r => r.1 = token).map Prod.snd).toFinset.card ≤ revealCap.toNat := by
  have hs : Rationed revealCap (start known revealCap revealJitter) :=
    ⟨rfl, nodup_nil, fun _ _ => by simp [start, seenBy], fun _ => Nat.zero_le _⟩
  have hrn := inv_run (fun _ _ hd hr => hd.step hr) _ calls hs h
  refine ⟨along_of_inv (fun _ _ hd hr => hd.step hr) (fun _ _ _ hr => hr.answers) _
    calls hs h, hrn.nodup, fun token => ?_⟩
  refine le_trans (le_of_eq (congrArg Finset.card (Finset.ext fun k => ?_))) (hrn.card_le token)
  rw [← hrn.mem]
  simp

def fleet (k : UInt8) : Announcement :=
  ⟨0, 0, .replicate 32 k, .replicate 32 2, 0, .ipv4 (.replicate 4 9) 443, [], .replicate 64 0⟩

def askFor (token : UInt8) (now : ℕ) : CohortCall :=
  ⟨some (.replicate 32 token), 2, now, some 7, default⟩

def askTwice : List CohortCall := [askFor 3 0, askFor 4 1, askFor 3 2, askFor 3 3]

/-- Two tokens, one of which asks until it has seen as many keys as it may. -/
theorem disclosure_rationed_twice :
    (run step (start [fleet 2, fleet 3, fleet 2, fleet 4] 2 1) askTwice).revealed.length = 3 ∧
    (run step (start [fleet 2, fleet 3, fleet 2, fleet 4] 2 1) askTwice).revealed.Nodup :=
  ⟨by decide +kernel, (disclosure_rationed _ 2 1 askTwice (by decide +kernel)).2.1⟩

theorem jitter_255_panics :
    ((start [fleet 2] 4 255).cohort.pickForToken (askFor 3 0)).1 = none := by
  decide +kernel

end Disclosure

end Mirage.Bridge
