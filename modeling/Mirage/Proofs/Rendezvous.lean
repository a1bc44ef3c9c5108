import Mirage.Discovery.Rendezvous

/-!
# The ratchet and the salt give the same keys

The chain of a ratchet is as many steps from the anchor as its epoch (`Reached`).
-/

namespace Mirage.Discovery

open Words ClientSubscriber Nat RendezvousRatchet Runs

variable {S : RendezvousSuite} {salt key : Bytes32} {ns plaintext blob : Bytes}
  {anchor epoch : ℕ} {ih : Vector UInt8 20} {nonce : Option (Vector UInt8 12)}

lemma advanceChain_add (chain : Bytes32) (m n : ℕ) :
    advanceChain S chain (m + n) = advanceChain S (advanceChain S chain m) n := by
  induction m generalizing chain with
  | zero => rw [zero_add, advanceChain]
  | succ m ih => rw [succ_add, advanceChain, ih, advanceChain]

lemma fsPrk_of_le (ha : anchor ≤ epoch) (hle : epoch ≤ anchor + maxRatchetSteps) :
    fsPrk S salt ns anchor epoch =
      some (advanceChain S (fsAnchor S salt ns anchor) (epoch - anchor)) := by
  rw [fsPrk, if_neg (by omega), if_neg (by omega)]

lemma fsPrk_of_lt (hlt : anchor + maxRatchetSteps < epoch) :
    fsPrk S salt ns anchor epoch = none := by
  rw [fsPrk, if_neg (by omega), if_pos (by omega)]

namespace RendezvousRatchet

variable {r : RendezvousRatchet}

def step (S : RendezvousSuite) (r : RendezvousRatchet) (target : ℕ) : RendezvousRatchet :=
  (r.advanceTo S target).2

def after (S : RendezvousSuite) (salt : Bytes32) (ns : Bytes) (anchor : ℕ)
    (targets : List ℕ) : RendezvousRatchet :=
  run (step S) (seed S salt ns anchor) targets

/-- The chain is as many steps from the anchor as its epoch. -/
structure Reached (S : RendezvousSuite) (salt : Bytes32) (ns : Bytes) (anchor : ℕ)
    (r : RendezvousRatchet) : Prop where
  le : anchor ≤ r.epoch
  chain : r.chain = advanceChain S (fsAnchor S salt ns anchor) (r.epoch - anchor)

lemma advanceTo_cases (S : RendezvousSuite) (r : RendezvousRatchet) (target : ℕ) :
    (∃ e, r.advanceTo S target = (.error e, r)) ∨ r.epoch ≤ target ∧ r.advanceTo S target =
      (.ok (), { r with epoch := target, chain := advanceChain S r.chain (target - r.epoch) }) := by
  rw [advanceTo]
  split_ifs with hb hf
  · exact .inl ⟨_, rfl⟩
  · exact .inl ⟨_, rfl⟩
  · exact .inr ⟨not_lt.1 hb, rfl⟩

lemma Reached.advance (h : Reached S salt ns anchor r) (hle : r.epoch ≤ epoch) :
    advanceChain S r.chain (epoch - r.epoch) =
      advanceChain S (fsAnchor S salt ns anchor) (epoch - anchor) := by
  have hs : epoch - anchor = (r.epoch - anchor) + (epoch - r.epoch) := by
    have := h.le
    omega
  rw [h.chain, ← advanceChain_add, ← hs]

lemma reached_step (target : ℕ) (h : Reached S salt ns anchor r) :
    Reached S salt ns anchor (r.step S target) := by
  rw [step]
  rcases r.advanceTo_cases S target with ⟨e, hr⟩ | ⟨hle, hr⟩ <;> rw [hr]
  · exact h
  · exact ⟨h.le.trans hle, h.advance hle⟩

lemma reached_after
    (targets : List ℕ) : Reached S salt ns anchor (after S salt ns anchor targets) := by
  have hs : Reached S salt ns anchor (seed S salt ns anchor) := by
    refine ⟨Nat.le_refl _, ?_⟩
    simp only [seed, Nat.sub_self, advanceChain]
  exact inv_run (fun _ target h _ => reached_step target h) _ targets hs (along_true _ _)

lemma epoch_le_step (target : ℕ) : r.epoch ≤ (r.step S target).epoch := by
  rw [step]
  rcases r.advanceTo_cases S target with ⟨e, hr⟩ | ⟨hle, hr⟩ <;> rw [hr]
  exact hle

lemma epoch_le_run : ∀ targets r,
    r.epoch ≤ (run (step S) r targets).epoch
  | [], _ => le_refl _
  | target :: targets, r =>
    (epoch_le_step target).trans (epoch_le_run targets (r.step S target))

lemma keyAt_eq_some (h : r.keyAt S epoch = some (ih, key)) :
    r.epoch ≤ epoch ∧ ih = infoHashFromPrk S (advanceChain S r.chain (epoch - r.epoch)) ∧
      key = cipherKeyFromPrk S (advanceChain S r.chain (epoch - r.epoch)) := by
  rw [keyAt] at h
  split_ifs at h with hp hf
  simp only [Option.some.injEq, Prod.mk.injEq] at h
  exact ⟨not_lt.1 hp, h.1.symm, h.2.symm⟩

lemma keyAt_past (h : epoch < r.epoch) : r.keyAt S epoch = none := by
  rw [keyAt, if_pos h]

lemma Reached.agree_iff (h : Reached S salt ns anchor r) (hk : r.keyAt S epoch = some (ih, key)) :
    (fsInfoHash S salt ns anchor epoch = some ih ∧ fsCipherKey S salt ns anchor epoch = some key) ↔
      epoch ≤ anchor + maxRatchetSteps := by
  obtain ⟨hle, rfl, rfl⟩ := keyAt_eq_some hk
  rw [h.advance hle, fsInfoHash, fsCipherKey]
  constructor
  · rintro ⟨hih, -⟩
    by_contra hlt
    rw [fsPrk_of_lt (not_le.1 hlt)] at hih
    cases hih
  · intro hm
    rw [fsPrk_of_le (h.le.trans hle) hm]
    exact ⟨rfl, rfl⟩

end RendezvousRatchet

lemma openWith_sealWith (hS : S.Lawful) {aad : Bytes}
    (h : sealWith S key aad plaintext nonce = .ok blob) :
    openWith S (.ok key) aad blob = .ok plaintext := by
  cases nonce with
  | none => cases h
  | some nonce =>
    simp only [sealWith] at h
    split at h
    · cases h
    rename_i ct hct
    obtain rfl := Except.ok.inj h
    have hl : ¬ (nonce.toList ++ ct).length < sealNonceLen + 16 := by
      rw [List.length_append, Vector.length_toList, hS.length hct, sealNonceLen]
      omega
    have hn : vec 12 (nonce.toList ++ ct) = nonce := by
      rw [← vec_take (le_refl 12), List.take_left' (by simp), vec_toList]
    have hd : (nonce.toList ++ ct).drop sealNonceLen = ct :=
      List.drop_left' (by simp [sealNonceLen])
    simp only [openWith, if_neg hl, hn, hd, hS.decrypt hct]

namespace OperatorPublisher

def afterFloors (S : RendezvousSuite) (salt : Bytes32) (anchor current : ℕ)
    (floors : List ℕ) : OperatorPublisher :=
  run (advanceFsFloor S) ((new salt).withForwardSecretRatchet S anchor current) floors

lemma afterFloors_eq (current : ℕ) (floors : List ℕ) : afterFloors S salt anchor current floors =
      ⟨Vector.replicate 32 0, some anchor, some
        (.after S salt namespaceClientToBridge anchor (current :: floors))⟩ := by
  have hr : ∀ floors r,
      run (advanceFsFloor S) ⟨Vector.replicate 32 0, some anchor, some r⟩ floors =
        ⟨Vector.replicate 32 0, some anchor, some (run (step S) r floors)⟩ := by
    intro floors
    induction floors with
    | nil => exact fun _ => rfl
    | cons floor floors ih => exact fun r => ih (r.step S floor)
  exact hr floors _

lemma sealAndIh_eq_ok {zeros : Bytes32} {r : RendezvousRatchet}
    (h : sealAndIh S ⟨zeros, some anchor, some r⟩ epoch plaintext nonce = .ok (ih, blob)) :
    ∃ key, r.keyAt S epoch = some (ih, key) ∧
      sealWith S key (buildAadFs namespaceClientToBridge anchor epoch) plaintext nonce =
        .ok blob := by
  simp only [sealAndIh, sealFsWithKey] at h
  split at h
  · cases h
  rename_i ih' key hk
  split at h
  · cases h
  · rename_i ct hct
    obtain ⟨rfl, rfl⟩ := h
    exact ⟨key, hk, hct⟩

end OperatorPublisher

lemma found_iff (hS : S.Lawful) {r : RendezvousRatchet} {zeros operatorPk : Bytes32}
    (hr : r.Reached S salt namespaceClientToBridge anchor)
    (h : OperatorPublisher.sealAndIh S ⟨zeros, some anchor, some r⟩ epoch plaintext nonce =
      .ok (ih, blob)) :
    (((new salt operatorPk).withForwardSecret anchor).infoHashAt S epoch = ih ∧
      ((new salt operatorPk).withForwardSecret anchor).openAt S epoch blob =
        .ok plaintext) ↔ epoch ≤ anchor + maxRatchetSteps := by
  obtain ⟨key, hk, hs⟩ := OperatorPublisher.sealAndIh_eq_ok h
  have ha := hr.agree_iff hk
  simp only [infoHashAt, openAt, new, withForwardSecret, openFs]
  constructor
  · rintro ⟨-, ho⟩
    by_contra hlt
    simp only [fsCipherKey, fsPrk_of_lt (not_le.1 hlt), Option.map_none, openWith] at ho
    split_ifs at ho
  · intro hle
    obtain ⟨hih, hck⟩ := ha.2 hle
    rw [hih, hck]
    exact ⟨rfl, openWith_sealWith hS hs⟩

/-- Within the step limit of the anchor, and only there, salt and ratchet lead to the same key. -/
theorem rendezvous_agreement (hS : S.Lawful) (salt : Bytes32) (anchor : ℕ) :
    (∀ ns targets epoch ih key, (after S salt ns anchor targets).keyAt S epoch = some (ih, key) →
      ((fsInfoHash S salt ns anchor epoch = some ih ∧
        fsCipherKey S salt ns anchor epoch = some key) ↔ epoch ≤ anchor + maxRatchetSteps)) ∧
    (∀ current floors epoch plaintext nonce ih blob operatorPk,
      (OperatorPublisher.afterFloors S salt anchor current floors).sealAndIh S epoch plaintext
        nonce = .ok (ih, blob) →
      ((((new salt operatorPk).withForwardSecret anchor).infoHashAt S epoch = ih ∧
        ((new salt operatorPk).withForwardSecret anchor).openAt S epoch blob =
          .ok plaintext) ↔ epoch ≤ anchor + maxRatchetSteps)) ∧ ∀ ns earlier target later epoch,
      ((after S salt ns anchor earlier).advanceTo S target).1 = .ok () → epoch < target →
      (after S salt ns anchor (earlier ++ target :: later)).keyAt S epoch = none := by
  refine ⟨fun ns targets epoch ih key hk => ?_, ?_, ?_⟩
  · exact (reached_after targets).agree_iff hk
  · intro current floors epoch plaintext nonce ih blob operatorPk h
    rw [OperatorPublisher.afterFloors_eq] at h
    exact found_iff hS (reached_after _) h
  intro ns earlier target later epoch hok hlt
  refine keyAt_past (lt_of_lt_of_le hlt ?_)
  have he : ((after S salt ns anchor earlier).step S target).epoch =
      target := by
    rw [step]
    rcases advanceTo_cases S (.after S salt ns anchor earlier) target with
      ⟨e, hr⟩ | ⟨-, hr⟩
    · rw [hr] at hok
      cases hok
    · rw [hr]
  rw [after, run_append, run_cons]
  calc target = ((after S salt ns anchor earlier).step S target).epoch :=
        he.symm
    _ ≤ _ := epoch_le_run later _

def plainRendezvous : RendezvousSuite where
  blake3 _ := Vector.replicate 32 0
  blake3Keyed _ _ := Vector.replicate 32 0
  blake3DeriveKey _ _ := Vector.replicate 32 0
  encrypt _ _ _ msg := some (msg ++ List.replicate 16 0)
  decrypt _ _ _ ct := some (ct.take (ct.length - 16))

lemma plainRendezvous_lawful : plainRendezvous.Lawful where
  length {key nonce aad msg ct} h := by
    obtain rfl := Option.some.inj h
    rw [List.length_append, List.length_replicate]
  decrypt {key nonce aad msg ct} h := by
    obtain rfl := Option.some.inj h
    simp [plainRendezvous]

/-- A blob for the epoch 9, sealed at the epoch 7, is found and opened with the anchor 5. -/
theorem rendezvous_agreement_nine :
    ((new (vec 32 [1]) (vec 32 [2])).withForwardSecret 5).openAt plainRendezvous 9
      ((vec 12 [3]).toList ++ ([7, 8] ++ List.replicate 16 0)) = .ok [7, 8] :=
  (((rendezvous_agreement plainRendezvous_lawful (vec 32 [1]) 5).2.1 6 [7] 9 [7, 8]
    (some (vec 12 [3])) (vec 20 []) _ (vec 32 [2]) (by decide +kernel)).2 (by decide)).2

/-- One hop and one step take the ratchet where the salt does not reach. -/
theorem rendezvous_beyond_reach :
    (∃ ih key, (after plainRendezvous (vec 32 [1]) namespaceClientToBridge 0
      [100000]).keyAt plainRendezvous 100001 = some (ih, key)) ∧
    (∃ ih blob, (OperatorPublisher.afterFloors plainRendezvous (vec 32 [1]) 0 100000 []).sealAndIh
      plainRendezvous 100001 [7] (some (vec 12 [])) = .ok (ih, blob)) ∧
    fsInfoHash plainRendezvous (vec 32 [1]) namespaceClientToBridge 0 100001 = none ∧
    ∀ blob, ∃ e, ((new (vec 32 [1]) (vec 32 [2])).withForwardSecret 0).openAt
      plainRendezvous 100001 blob = .error e := by
  have hf : fsPrk plainRendezvous (vec 32 [1]) namespaceClientToBridge 0 100001 = none :=
    fsPrk_of_lt (by decide)
  obtain ⟨ih, key, hk⟩ : ∃ ih key, (after plainRendezvous (vec 32 [1])
      namespaceClientToBridge 0 [100000]).keyAt plainRendezvous 100001 = some (ih, key) := by
    -- Only the epochs are evaluated, not the chain of a hundred thousand steps.
    simp [after, run, step, seed, advanceTo, keyAt, maxRatchetSteps]
  refine ⟨⟨ih, key, hk⟩, ?_, ?_, fun blob => ?_⟩
  · exact ⟨_, _, rfl⟩
  · rw [fsInfoHash, hf, Option.map_none]
  · simp only [openAt, new, withForwardSecret, openFs, fsCipherKey, hf, Option.map_none, openWith]
    split_ifs <;> exact ⟨_, rfl⟩

end Mirage.Discovery
