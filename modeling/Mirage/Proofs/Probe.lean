import Mirage.Transport.Probe

/-!
# A probe is accepted once

A probe that is accepted is kept until two windows after its time (`Kept`), and by then it is stale.
-/

namespace Mirage.Transport

open Words Maps BridgeProbeInputs ProbeLog Vector Runs
open List hiding Vector

variable {S : RealitySuite} {sk : Bytes32} {inputs : BridgeProbeInputs}
  {set : ReplayProbeSet}

namespace BridgeProbeInputs

variable (S : RealitySuite) (sk : Bytes32) (inputs : BridgeProbeInputs)

def probe : Probe :=
  ⟨vec 12 inputs.wireProbe.toList,
    UInt32.ofNat (beNat ((inputs.wireProbe.toList.drop nonceLen).take 4)),
    vec 16 (inputs.wireProbe.toList.drop (nonceLen + 4))⟩

def shared : Bytes32 := S.diffieHellman sk inputs.clientEphPk

def realTs : UInt32 :=
  inputs.probe.timestamp ^^^ probeTsMask S (inputs.shared S sk) inputs.probe.nonce

def key : Vector UInt8 12 × UInt32 := (inputs.probe.nonce, inputs.realTs S sk)

def deadline : ℕ := (inputs.realTs S sk).toNat + timestampWindowSeconds * 2

def epochSecret : Option Bytes32 :=
  deriveEpochProbeSecret S inputs.probeRoot (probeEpoch (inputs.realTs S sk).toNat)

def skew : ℕ :=
  max inputs.nowUnix.toNat (inputs.realTs S sk).toNat -
    min inputs.nowUnix.toNat (inputs.realTs S sk).toNat

/-- The probe has the tag that the shared secret gives, with an epoch secret or without. -/
def TaggedUnder (secret : Option Bytes32) : Prop :=
  inputs.probe.tag = computeTag S (deriveAuthKey S (inputs.shared S sk) secret)
    inputs.probe.nonce (inputs.realTs S sk) inputs.chRandom inputs.clientEphPk
deriving Decidable

/-- Fresh and tagged, under the secret of its epoch unless legacy probes are accepted. -/
structure Genuine : Prop where
  fresh : inputs.skew S sk ≤ timestampWindowSeconds
  tagged : inputs.TaggedUnder S sk none ∨ inputs.TaggedUnder S sk (inputs.epochSecret S sk)
  bound : inputs.probeRoot ≠ probeRootDisabled → inputs.acceptLegacy = false →
    ∃ secret, inputs.epochSecret S sk = some secret ∧ inputs.TaggedUnder S sk (some secret)

end BridgeProbeInputs

lemma decode_wireProbe : Probe.decode inputs.wireProbe.toList = .ok inputs.probe := by
  have hl : ¬ inputs.wireProbe.toList.length ≠ sessionIdLen := by
    rw [length_toList]
    exact not_not.2 rfl
  rw [Probe.decode, if_neg hl]
  rfl

lemma isSome_epochSecret_iff :
    (inputs.epochSecret S sk).isSome = true ↔ inputs.probeRoot ≠ probeRootDisabled := by
  rw [epochSecret, deriveEpochProbeSecret]
  split_ifs with h <;> simp [h]

namespace BridgeProbeInputs

variable (S : RealitySuite) (sk : Bytes32) (inputs : BridgeProbeInputs)

def tagOk : Bool :=
  if (inputs.epochSecret S sk).isSome then
    inputs.TaggedUnder S sk (inputs.epochSecret S sk) ||
      inputs.acceptLegacy && inputs.TaggedUnder S sk none
  else inputs.TaggedUnder S sk none

end BridgeProbeInputs

def setAnswer : Bool × ReplayProbeSet → Except RealityError Unit × ReplayProbeSet
  | (true, set) => (.ok (), set)
  | (false, set) => (.error (if set.recentlyFull then .replaySetFull else .replay), set)

lemma verifyProbe_eq : verifyProbe S sk inputs set =
    if inputs.shared S sk = Vector.replicate 32 0 then (.error .zeroPoint, set)
    else if timestampWindowSeconds < inputs.skew S sk then (.error .timestampStale, set)
    else if !inputs.tagOk S sk then (.error .tagMismatch, set)
    else setAnswer (set.checkAndInsert inputs.probe.nonce (inputs.realTs S sk)
      (inputs.deadline S sk) inputs.nowUnix.toNat) := by
  have hr : inputs.deadline S sk =
      min ((inputs.realTs S sk).toNat + timestampWindowSeconds * 2) (2 ^ 64 - 1) := by
    have := (inputs.realTs S sk).toNat_lt
    rw [deadline, timestampWindowSeconds]
    omega
  rw [hr, verifyProbe, decode_wireProbe]
  rfl

lemma tagged_of_tagOk (h : inputs.tagOk S sk = true) :
    inputs.TaggedUnder S sk (inputs.epochSecret S sk) ∨
      (inputs.probeRoot ≠ probeRootDisabled → inputs.acceptLegacy = true) ∧
        inputs.TaggedUnder S sk none := by
  rw [tagOk] at h
  split_ifs at h with hs
  · rw [Bool.or_eq_true, Bool.and_eq_true, decide_eq_true_eq, decide_eq_true_eq] at h
    rcases h with h | ⟨hl, h⟩
    · exact .inl h
    · exact .inr ⟨fun _ => hl, h⟩
  · rw [isSome_epochSecret_iff] at hs
    exact .inr ⟨fun hr => absurd hr hs, of_decide_eq_true h⟩

/-- A check fails before it comes to the set, or is left to the set. -/
theorem verifyProbe_cases :
    (∃ e, verifyProbe S sk inputs set = (.error e, set) ∧ e ≠ .replaySetFull) ∨
    inputs.Genuine S sk ∧ verifyProbe S sk inputs set =
      setAnswer (set.checkAndInsert inputs.probe.nonce (inputs.realTs S sk)
        (inputs.deadline S sk) inputs.nowUnix.toNat) := by
  rw [verifyProbe_eq]
  split_ifs with hz hst htg
  · exact .inl ⟨_, rfl, nofun⟩
  · exact .inl ⟨_, rfl, nofun⟩
  · exact .inl ⟨_, rfl, nofun⟩
  have hok : inputs.tagOk S sk = true := by simpa using htg
  have ht := tagged_of_tagOk hok
  refine .inr ⟨⟨Nat.not_lt.1 hst, ?_, fun hr hl => ?_⟩, rfl⟩
  · exact ht.elim .inr fun h => .inl h.2
  obtain ⟨secret, hs⟩ := Option.isSome_iff_exists.1 (isSome_epochSecret_iff.2 hr)
  refine ⟨secret, hs, ?_⟩
  rcases ht with h | ⟨h, -⟩
  · rwa [hs] at h
  · rw [h hr] at hl
    cases hl

namespace ReplayProbeSet

variable {set : ReplayProbeSet} {key : Vector UInt8 12 × UInt32} {d now : ℕ}

lemma checkAndInsert_cases (set : ReplayProbeSet) (nonce : Vector UInt8 12) (ts : UInt32)
    (deadline now : ℕ) :
    (nonce, ts) ∈ set.entries ∧ set.checkAndInsert nonce ts deadline now =
      (false, { set with recentlyFull := false }) ∨
    set.checkAndInsert nonce ts deadline now =
      (false, { set.evictExpired now with recentlyFull := true }) ∨
    ∃ set', (set' = set ∨ set' = set.evictExpired now) ∧ (nonce, ts) ∉ set.entries ∧
      size set'.entries < set.maxEntries ∧
      set.checkAndInsert nonce ts deadline now = (true, set'.insert (nonce, ts) deadline) := by
  simp only [checkAndInsert]
  split_ifs with hm hf hs
  · exact .inl ⟨hm, rfl⟩
  · exact .inr (.inl rfl)
  · exact .inr (.inr ⟨_, .inr rfl, hm, Nat.not_le.1 hs, rfl⟩)
  · exact .inr (.inr ⟨_, .inl rfl, hm, Nat.not_le.1 hf, rfl⟩)

lemma lookup_evictExpired (h : set.entries.lookup key = some d) (hd : now ≤ d) :
    (set.evictExpired now).entries.lookup key = some d := by
  rw [evictExpired, lookup_retain, h]
  exact Option.filter_some_pos (decide_eq_true hd)

lemma lookup_checkAndInsert (nonce : Vector UInt8 12) (ts : UInt32) (deadline : ℕ)
    (h : set.entries.lookup key = some d) (hd : now ≤ d) :
    (set.checkAndInsert nonce ts deadline now).2.entries.lookup key = some d := by
  rcases set.checkAndInsert_cases nonce ts deadline now with
    ⟨-, hr⟩ | hr | ⟨set', hs', hn, -, hr⟩ <;> rw [hr]
  · exact h
  · exact lookup_evictExpired h hd
  have hk : key ≠ (nonce, ts) := by
    rintro rfl
    exact hn (mem_of_lookup h)
  refine (AList.lookup_insert_ne hk).trans ?_
  rcases hs' with rfl | rfl
  · exact h
  · exact lookup_evictExpired h hd

lemma size_evictExpired_le (set : ReplayProbeSet) (now : ℕ) :
    size (set.evictExpired now).entries ≤ size set.entries :=
  length_filter_le _ _

end ReplayProbeSet

lemma entries_of_error {e : RealityError} (h : (verifyProbe S sk inputs set).1 = .error e)
    (he : e ≠ .replaySetFull) : (verifyProbe S sk inputs set).2.entries = set.entries := by
  rcases verifyProbe_cases with ⟨e', hr, -⟩ | ⟨-, hr⟩
  · rw [hr]
  rw [hr] at h ⊢
  rcases set.checkAndInsert_cases inputs.probe.nonce (inputs.realTs S sk) (inputs.deadline S sk)
    inputs.nowUnix.toNat with ⟨-, hs⟩ | hs | ⟨set', -, -, -, hs⟩ <;> rw [hs] at h ⊢
  · rfl
  · exact absurd (Except.error.inj h).symm he
  · cases h

lemma genuine_of_ok (h : (verifyProbe S sk inputs set).1 = .ok ()) : inputs.Genuine S sk := by
  rcases verifyProbe_cases with ⟨e, hr, -⟩ | ⟨hg, -⟩
  · rw [hr] at h
    cases h
  · exact hg

lemma lookup_of_ok (h : (verifyProbe S sk inputs set).1 = .ok ()) : inputs.key S sk ∉ set.entries ∧
      (verifyProbe S sk inputs set).2.entries.lookup (inputs.key S sk) =
        some (inputs.deadline S sk) := by
  rcases verifyProbe_cases with ⟨e, hr, -⟩ | ⟨-, hr⟩ <;> rw [hr] at h ⊢
  · cases h
  rcases set.checkAndInsert_cases inputs.probe.nonce (inputs.realTs S sk) (inputs.deadline S sk)
    inputs.nowUnix.toNat with ⟨-, hs⟩ | hs | ⟨set', -, hn, -, hs⟩ <;> rw [hs] at h ⊢
  · cases h
  · cases h
  · exact ⟨hn, AList.lookup_insert _⟩

lemma lookup_verifyProbe {key : Vector UInt8 12 × UInt32} {d : ℕ}
    (h : set.entries.lookup key = some d) (hd : inputs.nowUnix.toNat ≤ d) :
    (verifyProbe S sk inputs set).2.entries.lookup key = some d := by
  rcases verifyProbe_cases with ⟨e, hr, -⟩ | ⟨-, hr⟩ <;> rw [hr]
  · exact h
  have hk := ReplayProbeSet.lookup_checkAndInsert inputs.probe.nonce (inputs.realTs S sk)
    (inputs.deadline S sk) h hd
  generalize set.checkAndInsert inputs.probe.nonce (inputs.realTs S sk) (inputs.deadline S sk)
    inputs.nowUnix.toNat = answer at hk
  obtain ⟨_ | _, set'⟩ := answer <;> exact hk

lemma not_ok_of_full (h : set.maxEntries ≤ size (set.evictExpired inputs.nowUnix.toNat).entries) :
    (verifyProbe S sk inputs set).1 ≠ .ok () := by
  intro hok
  have hle := set.size_evictExpired_le inputs.nowUnix.toNat
  rcases verifyProbe_cases with ⟨e, hr, -⟩ | ⟨-, hr⟩ <;> rw [hr] at hok
  · cases hok
  rcases set.checkAndInsert_cases inputs.probe.nonce (inputs.realTs S sk) (inputs.deadline S sk)
    inputs.nowUnix.toNat with ⟨-, hs⟩ | hs | ⟨set', hs', -, hrm, hs⟩ <;>
    rw [hs] at hok
  · cases hok
  · cases hok
  · rcases hs' with rfl | rfl <;> omega

def BridgeProbeInputs.presented (inputs : BridgeProbeInputs) : Bytes32 × Bytes32 × Bytes32 :=
  (inputs.wireProbe, inputs.clientEphPk, inputs.chRandom)

lemma key_eq_of_presented {c : BridgeProbeInputs} (h : c.presented = inputs.presented) :
    c.key S sk = inputs.key S sk ∧ c.deadline S sk = inputs.deadline S sk := by
  simp only [presented, Prod.mk.injEq] at h
  have hts : c.realTs S sk = inputs.realTs S sk := by simp only [realTs, shared, probe, h.1, h.2.1]
  simp only [key, deadline, probe, hts, h.1, and_self]

namespace ProbeLog

variable {b : ProbeLog}

def Onward (b : ProbeLog) (inputs : BridgeProbeInputs) : Prop := b.clock ≤ inputs.nowUnix
deriving Decidable

/-- Every accepted probe is in the set until its deadline has passed. -/
structure Kept (S : RealitySuite) (sk : Bytes32) (b : ProbeLog) : Prop where
  kept : ∀ c ∈ b.accepted, b.clock.toNat ≤ c.deadline S sk →
    b.set.entries.lookup (c.key S sk) = some (c.deadline S sk)
  once : (b.accepted.map presented).Nodup

lemma kept_step (h : Kept S sk b) (hcl : b.Onward inputs) : Kept S sk (b.step S sk inputs) := by
  have hk : ∀ c ∈ b.accepted, inputs.nowUnix.toNat ≤ c.deadline S sk →
      (verifyProbe S sk inputs b.set).2.entries.lookup (c.key S sk) =
        some (c.deadline S sk) := fun c hc hle =>
    lookup_verifyProbe (h.kept c hc (le_trans hcl hle)) hle
  rw [step]
  rcases hr : verifyProbe S sk inputs b.set with ⟨e | u, set'⟩
  · rw [hr] at hk
    exact ⟨hk, h.once⟩
  have hok : (verifyProbe S sk inputs b.set).1 = .ok () := by rw [hr]
  have hf := (genuine_of_ok hok).fresh
  obtain ⟨hn, hl⟩ := lookup_of_ok hok
  rw [hr] at hk hl
  refine ⟨fun c hc hle => ?_, nodup_cons.2 ⟨fun hm => ?_, h.once⟩⟩
  · rcases mem_cons.1 hc with rfl | hc
    · exact hl
    · exact hk c hc hle
  -- The same probe is fresh, so its entry would still be there.
  obtain ⟨c, hc, heq⟩ := mem_map.1 hm
  obtain ⟨hky, hd⟩ := key_eq_of_presented heq
  have hle : b.clock.toNat ≤ c.deadline S sk := by
    have hc' : b.clock.toNat ≤ inputs.nowUnix.toNat := hcl
    rw [hd, deadline]
    simp only [skew, timestampWindowSeconds] at hf ⊢
    omega
  have hin := h.kept c hc hle
  rw [hky] at hin
  exact hn (mem_of_lookup hin)

/-- Only a genuine probe is accepted, and only the error of a full set touches the entries. -/
structure Sound (S : RealitySuite) (sk : Bytes32) (b : ProbeLog)
    (inputs : BridgeProbeInputs) : Prop where
  genuine : (verifyProbe S sk inputs b.set).1 = .ok () → inputs.Genuine S sk
  full : b.set.maxEntries ≤ size (b.set.evictExpired inputs.nowUnix.toNat).entries →
    (verifyProbe S sk inputs b.set).1 ≠ .ok ()
  entries : ∀ e, (verifyProbe S sk inputs b.set).1 = .error e → e ≠ .replaySetFull →
    (verifyProbe S sk inputs b.set).2.entries = b.set.entries

lemma sound : Sound S sk b inputs :=
  ⟨genuine_of_ok, not_ok_of_full, fun _ => entries_of_error⟩

/-- A probe is accepted at most once, and is in the set while it is fresh. -/
theorem probe_accepted_once (S : RealitySuite) (sk : Bytes32) (maxEntries : ℕ)
    {calls : List BridgeProbeInputs} (h : Runs.Along (step S sk) Onward (new maxEntries) calls) :
    ((run (step S sk) (new maxEntries) calls).accepted.map presented).Nodup ∧
    Runs.Along (step S sk) (Sound S sk) (new maxEntries) calls ∧
    ∀ c ∈ (run (step S sk) (new maxEntries) calls).accepted,
      (run (step S sk) (new maxEntries) calls).clock.toNat ≤
        (c.realTs S sk).toNat + timestampWindowSeconds →
      c.key S sk ∈ (run (step S sk) (new maxEntries) calls).set.entries := by
  have hk := inv_run (fun _ _ => kept_step) _ calls ⟨nofun, nodup_nil⟩ h
  refine ⟨hk.once, ?_, fun c hc hf => ?_⟩
  · exact along_of_inv (I := fun _ => True) (fun _ _ _ _ => trivial)
      (fun b inputs _ _ => sound) _ calls trivial h
  have hle : (run (step S sk) (new maxEntries) calls).clock.toNat ≤
      c.deadline S sk := by
    rw [deadline]
    omega
  have hin := hk.kept c hc hle
  exact mem_of_lookup hin

def flatReality : RealitySuite where
  blake3Keyed _ _ := replicate 32 5
  diffieHellman _ _ := replicate 32 1

def probeAt100 (nowUnix : UInt32) : BridgeProbeInputs where
  clientEphPk := replicate 32 2
  chRandom := replicate 32 3
  nowUnix := nowUnix
  wireProbe := vec 32 (List.replicate 12 9 ++ [5, 5, 5, 97] ++ List.replicate 16 5)
  probeRoot := probeRootDisabled
  acceptLegacy := false

/-- Presented three times: accepted, refused as a replay, refused as stale. -/
theorem probe_accepted_once_again : ((run (step flatReality (replicate 32 4)) (new 1)
      [probeAt100 90, probeAt100 150, probeAt100 300]).accepted.map presented).Nodup ∧
    (run (step flatReality (replicate 32 4)) (new 1)
      [probeAt100 90, probeAt100 150, probeAt100 300]).accepted = [probeAt100 90] :=
  ⟨(probe_accepted_once flatReality (replicate 32 4) 1 (by decide +kernel)).1, by decide +kernel⟩

end ProbeLog

end Mirage.Transport
