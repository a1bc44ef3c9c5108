import Mathlib.Data.List.Chain
import Mirage.Discovery.RotaLog

/-!
# What a client takes from the log of rotations

What is accepted is one chain. A client that is more than one checkpoint behind stays there.
-/

namespace Mirage.Discovery

open Words Runs RotaLogState
open List hiding Vector

variable {S : RotaSuite} {s : RotaLogState} {c : SignedCheckpoint} {a : AnchoredHead}

/-- The next checkpoint of a chain. -/
def Follows (S : RotaSuite) (c c' : Checkpoint) : Prop :=
  c'.seq.toNat = c.seq.toNat + 1 ∧ c'.prevHead = c.head S
deriving Decidable

namespace RotaLogState

/-- The checkpoint is genuine, is the anchored one and comes after the last one. -/
def Admits (S : RotaSuite) (s : RotaLogState) (c : SignedCheckpoint) (a : AnchoredHead) : Prop :=
  c.verify S s.motherPk = true ∧ c.seq = a.seq ∧ c.head S = a.head ∧
    ∀ last ∈ s.lastSeq, c.seq.toNat = last.toNat + 1 ∧ c.prevHead = s.lastHead

variable (S s c) (anchored : Option AnchoredHead)

/-- There is a verdict, and what it accepts is anchored and admissible. -/
lemma check_spec : ∃ v, s.check S c anchored = some v ∧
    (v.isAccept = true → ∃ a, anchored = some a ∧ s.Admits S c a) := by
  unfold check
  split
  · exact ⟨_, rfl, nofun⟩
  rename_i hv
  rw [Bool.not_eq_true', Bool.not_eq_false] at hv
  split
  · exact ⟨_, rfl, nofun⟩
  split
  · exact ⟨_, rfl, nofun⟩
  split
  · exact ⟨_, rfl, nofun⟩
  rename_i a hs hh
  rw [not_not] at hs hh
  split
  · next hl => exact ⟨_, rfl, fun _ => ⟨a, rfl, hv, hs, hh, by simp [hl]⟩⟩
  rename_i last hl
  split
  · exact ⟨_, rfl, nofun⟩
  rename_i hle
  -- the successor of a number below another one does not overflow
  have hlt := UInt64.lt_iff_toNat_lt.1 (UInt64.not_le.1 hle)
  have := c.seq.toNat_lt
  simp only [checkedSucc, if_pos (show last.toNat + 1 < 2 ^ 64 by omega), Option.bind_eq_bind,
    Option.bind_some]
  split_ifs with hn hp
  · exact ⟨_, rfl, nofun⟩
  · exact ⟨_, rfl, nofun⟩
  · refine ⟨_, rfl, fun _ => ⟨a, rfl, hv, hs, hh, fun last' h => ?_⟩⟩
    cases hl.symm.trans h
    exact ⟨by omega, not_not.1 hp⟩

/-- A checkpoint is refused and nothing changes, or it is admissible and the newest. -/
theorem checkAndAccept_spec :
    (∃ v, v.isAccept = false ∧ s.checkAndAccept S c anchored = some (v, s)) ∨
      ∃ v a, v.isAccept = true ∧ anchored = some a ∧ s.Admits S c a ∧
        s.checkAndAccept S c anchored =
          some (v, { s with lastSeq := some c.seq, lastHead := c.head S }) := by
  obtain ⟨v, hk, hv⟩ := check_spec S s c anchored
  cases ha : v.isAccept with
  | false => exact .inl ⟨v, ha, by simp [checkAndAccept, hk, ha]⟩
  | true =>
    obtain ⟨a, hn, hd⟩ := hv ha
    have hm : s.lastSeq.all (· < c.seq) = true := by
      rcases hq : s.lastSeq with _ | last
      · rfl
      · have := (hd.2.2.2 last hq).1
        simp only [Option.all_some, decide_eq_true_eq, UInt64.lt_iff_toNat_lt]
        omega
    exact .inr ⟨v, a, ha, hn, hd, by simp [checkAndAccept, hk, ha, accept, hm]⟩

end RotaLogState

namespace RotaClient

/-- The last checkpoint that was accepted is the client's, and all of them are one chain. -/
structure Inv (S : RotaSuite) (pk : Bytes32) (r : RotaClient) : Prop where
  motherPk : r.state.motherPk = pk
  lives : r.panicked = false
  genuine : ∀ e ∈ r.accepted, e.1.verify S pk = true ∧ e.1.seq = e.2.seq ∧ e.1.head S = e.2.head
  chain : (r.accepted.map (·.1.toCheckpoint)).IsChain (Follows S)
  lastSeq : r.state.lastSeq = r.accepted.getLast?.map (·.1.seq)
  lastHead : ∀ e ∈ r.accepted.getLast?, r.state.lastHead = e.1.head S

variable {pk : Bytes32}

lemma inv_step (r : RotaClient) (call : RotaCall) (h : r.Inv S pk) (_ : True) :
    (r.step S call).Inv S pk ∧
      ∀ q ∈ r.state.lastSeq, ∃ q' ∈ (r.step S call).state.lastSeq, q ≤ q' := by
  obtain ⟨hpk, hl, hg, hc, hs, hd⟩ := h
  cases call with
  | restart =>
    rcases hn : r.state.lastSeq with _ | last <;>
      simp only [step, restart, hn] at hs ⊢
    · exact ⟨⟨hpk, hl, hg, hc, hs, by simp_all⟩, nofun⟩
    · exact ⟨⟨hpk, hl, hg, hc, hs, hd⟩, fun q hq => ⟨q, hq, UInt64.le_refl q⟩⟩
  | checkAndAccept c anchored =>
    simp only [step]
    obtain ⟨v, ha, hk⟩ | ⟨v, a, ha, rfl, ⟨hp, hq, hh, hf⟩, hk⟩ :=
      checkAndAccept_spec S r.state c anchored
    · simpa only [hk, ha] using ⟨⟨hpk, hl, hg, hc, hs, hd⟩, fun q hq => ⟨q, hq, UInt64.le_refl q⟩⟩
    simp only [hk, ha, if_true, Option.toList_some, map_cons, map_nil]
    refine ⟨⟨hpk, hl, fun e he => ?_, ?_, by simp, by simp⟩, fun q hq => ⟨_, rfl, ?_⟩⟩
    · rcases mem_append.1 he with he | he
      · exact hg e he
      · obtain rfl := mem_singleton.1 he
        exact ⟨hpk ▸ hp, hq, hh⟩
    · rw [map_append, isChain_append]
      refine ⟨hc, by simp, fun x hx y hy => ?_⟩
      simp only [getLast?_map, Option.mem_map] at hx
      obtain ⟨e, he, rfl⟩ := hx
      obtain rfl : c.toCheckpoint = y := by simpa using hy
      obtain ⟨hn, hv⟩ := hf e.1.seq (by rw [hs, he]; rfl)
      exact ⟨hn, hv.trans (hd e he)⟩
    · have := (hf q hq).1
      exact UInt64.le_iff_toNat_le.2 (by omega)

/-- A client accepts one chain of the mother key, and clients agree unless heads collide. -/
theorem accepts_one_chain (S : RotaSuite) (pk : Bytes32) (calls : List RotaCall) :
    let r := run (step S) (new pk) calls
    r.panicked = false ∧
    (∀ e ∈ r.accepted, e.1.verify S pk = true ∧ e.1.seq = e.2.seq ∧ e.1.head S = e.2.head) ∧
    (r.accepted.map (·.1.toCheckpoint)).IsChain (Follows S) ∧
    (∀ call, ∀ q ∈ r.state.lastSeq, ∃ q' ∈ (r.step S call).state.lastSeq, q ≤ q') ∧
    ∀ pk' calls', ∀ e ∈ r.accepted, ∀ e' ∈ (run (step S) (new pk') calls').accepted,
      e.1.seq = e'.1.seq → e.2.head = e'.2.head →
      (S.blake3 e.1.headBytes = S.blake3 e'.1.headBytes → e.1.headBytes = e'.1.headBytes) →
        e.1.docCommitment = e'.1.docCommitment := by
  have inv (pk calls) : (run (step S) (new pk) calls).Inv S pk :=
    inv_run (fun r call h ht => (inv_step r call h ht).1) _ calls
      ⟨rfl, rfl, nofun, .nil, rfl, nofun⟩ (along_true _ _)
  intro r
  have h : r.Inv S pk := inv pk calls
  refine ⟨h.lives, h.genuine, h.chain, fun call => (inv_step r call h trivial).2,
    fun pk' calls' e he e' he' _ hhd hcf => ?_⟩
  have hb := hcf ((h.genuine e he).2.2.trans (hhd.trans ((inv pk' calls').genuine e' he').2.2.symm))
  exact Vector.toList_inj.1 (append_inj_right' hb (by simp))

end RotaClient

/-- A chain of checkpoints under the mother key. -/
structure HonestLog (S : RotaSuite) (pk : Bytes32) (log : List SignedCheckpoint) :
    Prop where
  signed : ∀ c ∈ log, c.verify S pk = true
  chain : (log.map (·.toCheckpoint)).IsChain (Follows S)

/-- Some calls lead to the newest checkpoint, and no newer one is taken for an attack. -/
def CatchesUp (S : RotaSuite) (s : RotaLogState) (log : List SignedCheckpoint)
    (newest : SignedCheckpoint) : Prop :=
  let a : AnchoredHead := ⟨newest.head S, newest.seq⟩
  (∃ cs ⊆ log, retries S s a cs = .fromPersisted s.motherPk newest.seq (newest.head S)) ∧
  ∀ cs ⊆ log, ∀ c ∈ log, (∀ q ∈ (retries S s a cs).lastSeq, q < c.seq) →
    ∀ v ∈ (retries S s a cs).check S c (some a), v.isAttack = false

section CatchUp

variable {pk : Bytes32} {log : List SignedCheckpoint} {last newest : SignedCheckpoint}

lemma HonestLog.pairwise (h : HonestLog S pk log) : log.Pairwise (·.seq.toNat < ·.seq.toNat) := by
  have hc : (log.map (·.seq.toNat)).IsChain (· < ·) :=
    (isChain_map _).2 (((isChain_map _).1 h.chain).imp fun c c' hf => by have := hf.1; omega)
  exact pairwise_map.1 hc.pairwise

/-- Against one head a client takes one checkpoint at most. -/
lemma retries_cases (S : RotaSuite) (s : RotaLogState) (a : AnchoredHead) :
    ∀ cs, retries S s a cs = s ∨ retries S s a cs = .fromPersisted s.motherPk a.seq a.head := by
  refine fun cs => inv_run (I := fun t => t = s ∨ t = .fromPersisted s.motherPk a.seq a.head)
    (fun t c ht _ => ?_) s cs (.inl rfl) (along_true _ cs)
  obtain ⟨v, ha, hk⟩ | ⟨v, b, ha, hb, ⟨-, hq, hh, hf⟩, hk⟩ :=
    checkAndAccept_spec S t c (some a)
  · simpa [hk] using ht
  cases hb
  rcases ht with rfl | rfl
  · exact .inr (by simp [hk, hq, hh, fromPersisted])
  · have := (hf _ rfl).1
    simp [hq] at this

/-- A client catches up exactly if it is one checkpoint behind. -/
theorem catches_up_iff (before later : List SignedCheckpoint)
    (h : HonestLog S pk (before ++ last :: (later ++ [newest]))) :
    CatchesUp S (.fromPersisted pk last.seq (last.head S)) (before ++ last :: (later ++ [newest]))
      newest ↔ later = [] := by
  have hp := (pairwise_append.1 h.pairwise)
  obtain ⟨hl, hn⟩ := pairwise_cons.1 hp.2.1
  have hlt := hl newest (by simp)
  constructor
  · rintro ⟨-, hno⟩
    rcases later with _ | ⟨c, later⟩
    · rfl
    -- the next checkpoint is not the anchored one
    have hc : c.seq ≠ newest.seq := fun hs => by
      have := (pairwise_cons.1 hn).1 newest (by simp)
      simp [hs] at this
    have hv := h.signed c (by simp)
    refine absurd (hno [] (nil_subset _) c (by simp) ?_ _
      ((if_neg (by simp [fromPersisted, retries, hv])).trans (if_pos hc))) nofun
    rintro q ⟨⟩
    exact UInt64.lt_iff_toNat_lt.2 (hl c (by simp))
  · rintro rfl
    have hf : Follows S last.toCheckpoint newest.toCheckpoint := by
      have := h.chain
      simp only [map_append, map_cons, nil_append, isChain_append_cons_cons] at this
      exact this.2.1
    have hv := h.signed newest (by simp)
    have hac : (fromPersisted pk last.seq (last.head S)).check S newest
        (some ⟨newest.head S, newest.seq⟩) = some .accept := by
      have := newest.seq.toNat_lt
      have hle : ¬newest.seq ≤ last.seq := by rw [UInt64.le_iff_toNat_le]; omega
      simp only [check, fromPersisted, hv, hf.1, hf.2, hle, checkedSucc,
        if_pos (show last.seq.toNat + 1 < 2 ^ 64 by omega), Option.bind_eq_bind, Option.bind_some]
      simp
    have hnw : ∀ c ∈ before ++ [last, newest], last.seq < c.seq → c = newest := by
      intro c hc hlc
      rw [UInt64.lt_iff_toNat_lt] at hlc
      simp only [mem_append, mem_cons, not_mem_nil, or_false] at hc
      rcases hc with hc | rfl | rfl
      · have := hp.2.2 c hc last (by simp)
        omega
      · omega
      · rfl
    refine ⟨⟨[newest], by simp, ?_⟩, fun cs _ c hc hq v hvd => ?_⟩
    · rw [retries, run_cons, checkAndAccept, hac]
      simp [RotaVerdict.isAccept, accept, fromPersisted, UInt64.lt_iff_toNat_lt, hlt]
    rcases retries_cases S (.fromPersisted pk last.seq (last.head S))
      ⟨newest.head S, newest.seq⟩ cs with hr | hr <;> rw [hr] at hq hvd
    · obtain rfl := hnw c hc (hq _ rfl)
      cases hac.symm.trans hvd
      rfl
    · have hcn : newest.seq < c.seq := hq _ rfl
      obtain rfl := hnw c hc (UInt64.lt_trans (UInt64.lt_iff_toNat_lt.2 hlt) hcn)
      exact absurd hcn (UInt64.lt_irrefl _)

/-- The hash is the place of the checkpoint; the signature repeats the key and what is signed. -/
def sampleRotaSuite : RotaSuite where
  blake3 b := vec 32 (b.drop 54)
  verify pk msg sig := sig = vec 64 (pk.toList ++ msg.drop 32)

def sampleRotation (n : ℕ) : SignedCheckpoint :=
  let c : Checkpoint := ⟨.ofNat n, vec 32 (beBytes 8 (n - 1)), genesisPrevHead⟩
  ⟨c, vec 64 (genesisPrevHead.toList ++ c.signingBytes.drop 32)⟩

def sampleBehind : RotaLogState :=
  .fromPersisted genesisPrevHead 0 ((sampleRotation 0).head sampleRotaSuite)

theorem catches_up_one_behind :
    CatchesUp sampleRotaSuite sampleBehind [sampleRotation 0, sampleRotation 1]
      (sampleRotation 1) :=
  (catches_up_iff [] [] ⟨by decide +kernel, by decide +kernel⟩).2 rfl

/-- Two behind, a client stays where it is and takes the checkpoint between for an attack. -/
theorem two_behind_stays :
    let log := [sampleRotation 0, sampleRotation 1, sampleRotation 2]
    let a : AnchoredHead := ⟨(sampleRotation 2).head sampleRotaSuite, 2⟩
    HonestLog sampleRotaSuite genesisPrevHead log ∧
      (∀ c ∈ log, (sampleBehind.checkAndAccept sampleRotaSuite c (some a)).map Prod.snd =
        some sampleBehind) ∧
      (sampleBehind.check sampleRotaSuite (sampleRotation 1) (some a)).map (·.isAttack) =
        some true :=
  ⟨⟨by decide +kernel, by decide +kernel⟩, by decide +kernel, by decide +kernel⟩

end CatchUp

end Mirage.Discovery
