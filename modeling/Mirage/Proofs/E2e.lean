import Mirage.Onion.E2e
import Mirage.Proofs.Descriptor

/-!
# Agreement at a rendezvous

What an honest key signed is the authentication of a run of the service or the start of a descriptor
(`Recorded.signed`).
-/

namespace Mirage.Onion

open Words Runs
open List hiding Vector

lemma Meeting.bytes_injective {m m' : Meeting} (h : m.bytes = m'.bytes) : m = m' := by
  obtain ⟨a, b, c, d⟩ := m
  have hl (v w : Bytes32) : v.toList.length = w.toList.length := by simp
  simp only [bytes, append_assoc, append_right_inj] at h
  obtain ⟨ha, h⟩ := append_inj h (hl _ _)
  obtain ⟨hb, h⟩ := append_inj h (hl _ _)
  obtain ⟨hc, hd⟩ := append_inj h (hl _ _)
  rw [Vector.toList_inj.1 ha, Vector.toList_inj.1 hb, Vector.toList_inj.1 hc,
    Vector.toList_inj.1 hd]

/-- The two kinds of signed bytes are told apart by their context. -/
theorem authMessage_ne_encodeSignedPrefix (t : Bytes32) (d : OnionDescriptor) :
    authMessage t ≠ d.encodeSignedPrefix := by
  intro h
  have h0 : (authMessage t).head? = d.encodeSignedPrefix.head? := by rw [h]
  simp only [authMessage, OnionDescriptor.encodeSignedPrefix, append_assoc, magic,
    cons_append, head?_cons] at h0
  rw [head?_append_of_ne_nil _ (by decide +kernel)] at h0
  revert h0
  decide +kernel

variable {S : E2eSuite} {net : E2eNet}

lemma clientSide_eq_ok {csk spk id cookie : Bytes32} {auth : Bytes64} {keys : RendezvousKeys}
    (h : clientSide S csk spk id cookie auth = .ok keys) : S.ed.validKey id = true ∧
      S.ed.verifyStrict id (authMessage (transcript S ⟨S.publicKey csk, spk, id, cookie⟩)) auth =
        true ∧ keys = keysFrom S (S.diffieHellman csk spk)
        (transcript S ⟨S.publicKey csk, spk, id, cookie⟩) := by
  simp only [clientSide] at h
  split at h
  · cases h
  split at h
  · cases h
  rename_i hk hv
  exact ⟨by simpa using hk, by simpa using hv, (Except.ok.inj h).symm⟩

namespace E2eNet

/-- Honest keys sign authentications of runs and starts of descriptors. -/
structure Recorded (S : E2eSuite) (net : E2eNet) : Prop where
  signed : ∀ pk msg, (pk, msg) ∈ net.signed →
    (∃ r ∈ net.services, S.ed.verifyingKey r.serviceIdSk = pk ∧
      msg = authMessage (transcript S (r.meeting S))) ∨
    ∃ d : OnionDescriptor, msg = d.encodeSignedPrefix
  meetings : ∀ r ∈ net.services, r.meeting S ∈ net.meetings

lemma Recorded.new : Recorded S .new :=
  ⟨fun _ _ h => absurd h not_mem_nil, fun _ h => absurd h not_mem_nil⟩

lemma Recorded.step (h : net.Recorded S) (e : E2eEvent) : (net.step S e).Recorded S := by
  cases e with
  | serviceSide r =>
    refine ⟨fun pk msg hm => ?_, fun r' hr => ?_⟩
    · rcases mem_cons.1 hm with heq | hm
      · cases heq
        exact .inl ⟨r, mem_cons_self, rfl, rfl⟩
      · rcases h.signed pk msg hm with ⟨r', hr, heq⟩ | hd
        · exact .inl ⟨r', mem_cons_of_mem _ hr, heq⟩
        · exact .inr hd
    · rcases mem_cons.1 hr with rfl | hr
      · exact mem_cons_self
      · exact mem_cons_of_mem _ (h.meetings r' hr)
  | signDescriptor sk d =>
    simp only [E2eNet.step]
    split
    · exact h
    refine ⟨fun pk msg hm => ?_, h.meetings⟩
    rcases mem_cons.1 hm with heq | hm
    · cases heq
      exact .inr ⟨_, rfl⟩
    · exact h.signed pk msg hm
  | clientSide csk spk id cookie auth =>
    simp only [E2eNet.step]
    split
    · exact ⟨h.signed, fun r hr => mem_cons_of_mem _ (h.meetings r hr)⟩
    · exact h

lemma meetings_step (e : E2eEvent) : net.meetings ⊆ (net.step S e).meetings := by
  cases e with
  | serviceSide r => exact subset_cons_self _ _
  | signDescriptor sk d =>
    simp only [step]
    split <;> exact List.Subset.refl _
  | clientSide csk spk id cookie auth =>
    simp only [step]
    split
    · exact subset_cons_self _ _
    · exact List.Subset.refl _

lemma CollisionFree.of_step {e : E2eEvent} (h : (net.step S e).CollisionFree S) :
    net.CollisionFree S :=
  fun m hm m' hm' => h m (meetings_step e hm) m' (meetings_step e hm')

lemma CollisionFree.meeting_eq (h : net.CollisionFree S) {m m' : Meeting} (hm : m ∈ net.meetings)
    (hm' : m' ∈ net.meetings) (ht : transcript S m = transcript S m') : m = m' :=
  Meeting.bytes_injective (h m hm m' hm' ht)

/-- A client that gets keys from an honest identity shares them with a run of that service. -/
def Agreement (S : E2eSuite) (honest : Set Bytes32) (net : E2eNet) : E2eEvent → Prop
  | .clientSide csk spk id cookie auth =>
    ∀ keys, clientSide S csk spk id cookie auth = .ok keys → id ∈ honest →
      ∃ r ∈ net.services, S.ed.verifyingKey r.serviceIdSk = id ∧ r.clientEphPk = S.publicKey csk ∧
        r.rendezvousCookie = cookie ∧ S.publicKey r.serviceEphSk = spk ∧ r.keys S = keys
  | _ => True

lemma agreement_of_unforged (commutes : S.Commutes) {honest : Set Bytes32}
    {e : E2eEvent} (h : net.Recorded S) (unforged : net.Unforged S honest e)
    (free : (net.step S e).CollisionFree S) : net.Agreement S honest e := by
  cases e with
  | serviceSide r | signDescriptor sk d => trivial
  | clientSide csk spk id cookie auth =>
    intro keys hok hid
    obtain ⟨hvl, hv, rfl⟩ := clientSide_eq_ok hok
    rcases h.signed _ _ (unforged hid hv) with ⟨r, hr, hpk, hms⟩ | ⟨d, hd⟩
    · have hst : (net.step S (.clientSide csk spk id cookie auth)).meetings =
          ⟨S.publicKey csk, spk, id, cookie⟩ :: net.meetings := by simp [step, hvl]
      have hm : ⟨S.publicKey csk, spk, id, cookie⟩ = r.meeting S := by
        refine free.meeting_eq ?_ ?_ (Vector.toList_inj.1 (append_cancel_left hms))
        · rw [hst]
          exact mem_cons_self
        · rw [hst]
          exact mem_cons_of_mem _ (h.meetings r hr)
      obtain ⟨hc, hs, -, hk⟩ := Meeting.mk.inj hm
      refine ⟨r, hr, hpk, hc.symm, hk.symm, hs.symm, ?_⟩
      rw [hm, hs, commutes, hc]
      rfl
    · exact absurd hd (authMessage_ne_encodeSignedPrefix _ _)

/-- A client that accepts an honest identity shares its keys with a run of that service at that
meeting. -/
theorem client_agrees_with_service (commutes : S.Commutes) (honest : Set Bytes32)
    (events : List E2eEvent) (unforged : Along (step S) (Unforged S honest) .new events)
    (free : (run (step S) .new events).CollisionFree S) :
    Along (step S) (Agreement S honest) .new events ∧
      ∀ m ∈ (run (step S) .new events).meetings, ∀ m' ∈ (run (step S) .new events).meetings,
        m ≠ m' → transcript S m ≠ transcript S m' := by
  refine ⟨?_, fun m hm m' hm' hne ht => hne (free.meeting_eq hm hm' ht)⟩
  have hf := (along_of_run (fun _ _ => CollisionFree.of_step) _ _ free).2
  exact along_of_inv (I := Recorded S) (fun _ e h _ => h.step e)
    (fun _ _ h hp => agreement_of_unforged commutes h hp.1 hp.2) _ _ .new (along_and unforged hf)

def plainSuite : E2eSuite where
  ed := OnionDescriptor.echoScheme
  blake3 bytes := vec 32 (bytes.drop transcriptLabel.length)
  blake3Xof bytes := vec 64 bytes.reverse
  publicKey sk := sk
  diffieHellman sk pk := .zipWith (· + ·) sk pk

def relayedRun : List E2eEvent :=
  let auth := (serviceSide plainSuite (.replicate 32 2) (.replicate 32 1) (.replicate 32 5)
    (.replicate 32 9)).2
  [.serviceSide ⟨.replicate 32 2, .replicate 32 1, .replicate 32 5, .replicate 32 9⟩,
    .signDescriptor (.replicate 32 5) OnionDescriptor.hostDescriptor,
    .clientSide (.replicate 32 1) (.replicate 32 2) (.replicate 32 5) (.replicate 32 9) auth,
    .clientSide (.replicate 32 4) (.replicate 32 2) (.replicate 32 5) (.replicate 32 9) auth]

def oneService : Set Bytes32 := {.replicate 32 5}

instance : DecidablePred (· ∈ oneService) := fun pk =>
  inferInstanceAs (Decidable (pk = .replicate 32 5))

theorem client_agrees_with_service_relayed :
    clientSide plainSuite (.replicate 32 1) (.replicate 32 2) (.replicate 32 5) (.replicate 32 9)
      (serviceSide plainSuite (.replicate 32 2) (.replicate 32 1) (.replicate 32 5)
        (.replicate 32 9)).2 = .ok (keysFrom plainSuite (.replicate 32 3) (.replicate 32 1)) ∧
    Along (step plainSuite) (Agreement plainSuite oneService) .new relayedRun := by
  refine ⟨by decide +kernel, (client_agrees_with_service ?_ oneService relayedRun ?_ ?_).1⟩
  · intro a b
    ext i hi
    simp [plainSuite, UInt8.add_comm]
  · decide +kernel
  · decide +kernel

end E2eNet

end Mirage.Onion
