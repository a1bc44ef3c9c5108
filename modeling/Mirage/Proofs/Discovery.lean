import Mathlib.Data.List.Dedup
import Mirage.Discovery.Pipeline
import Mirage.Proofs.Descriptor
import Mirage.Proofs.Rendezvous

/-!
# What a fetch returns

The blobs of a fetch are the first distinct ones of all the answers, as many as the router takes
(`blobs_fetch`).
-/

namespace Mirage.Discovery

open Words Announcement ClientSubscriber
open List hiding Vector
open Onion (Ed25519)
open Onion.OnionDescriptor (echoScheme)

def DiscoveryChannel.answer (ch : DiscoveryChannel) (ih : Vector UInt8 20) : List Bytes :=
  match ch.fetch ih with
  | some (.ok batch) => batch
  | _ => []

def DiscoveryRouter.answers (router : DiscoveryRouter) (ih : Vector UInt8 20) : List Bytes :=
  router.channels.flatMap fun ch => ch.answer ih

variable {maxResults : ℕ} {blob : Bytes} {blobs batch : List Bytes} {ih : Vector UInt8 20}

def addDistinct (blobs : List Bytes) (blob : Bytes) : List Bytes :=
  if blobs.contains blob then blobs else blobs ++ [blob]

def distinct (blobs : List Bytes) : List Bytes := blobs.foldl addDistinct []

lemma prefix_addDistinct : blobs <+: addDistinct blobs blob := by
  rw [addDistinct]
  split_ifs
  · exact prefix_refl blobs
  · exact prefix_append blobs [blob]

lemma mem_foldl_addDistinct : ∀ (batch blobs : List Bytes),
    blob ∈ batch.foldl addDistinct blobs ↔ blob ∈ blobs ∨ blob ∈ batch
  | [], blobs => by simp
  | b :: batch, blobs => by
    rw [foldl_cons, mem_foldl_addDistinct, addDistinct]
    split_ifs with hb
    · simp only [mem_cons]
      constructor
      · tauto
      · rintro (h | rfl | h)
        · exact .inl h
        · exact .inl (contains_iff_mem.1 hb)
        · exact .inr h
    · simp only [mem_append, mem_cons, not_mem_nil, or_false, or_assoc]

lemma mem_distinct : blob ∈ distinct blobs ↔ blob ∈ blobs := by
  simp [distinct, mem_foldl_addDistinct]

lemma prefix_foldl_addDistinct : ∀ (batch blobs : List Bytes),
    blobs <+: batch.foldl addDistinct blobs
  | [], blobs => prefix_refl blobs
  | _ :: batch, _ => prefix_addDistinct.trans (prefix_foldl_addDistinct batch _)

lemma distinct_concat : distinct (blobs ++ [blob]) = addDistinct (distinct blobs) blob := by
  rw [distinct, foldl_append]
  rfl

lemma nodup_distinct : (distinct blobs).Nodup := by
  induction blobs using reverseRecOn with
  | nil => exact nodup_nil
  | append_singleton blobs b ih =>
    rw [distinct_concat, addDistinct]
    split_ifs with hb
    · exact ih
    · exact ih.append (nodup_singleton b) (by simpa using hb)

lemma distinct_eq_self (h : blobs.Nodup) : distinct blobs = blobs := by
  induction blobs using reverseRecOn with
  | nil => rfl
  | append_singleton blobs b ih =>
    obtain ⟨hbl, -, hb⟩ := nodup_append'.1 h
    rw [distinct_concat, ih hbl, addDistinct, if_neg (by simpa using hb)]

lemma take_distinct_append (h : blobs.Nodup) (more : List Bytes) :
    (distinct (blobs ++ more)).take blobs.length = blobs := by
  rw [distinct, foldl_append, ← distinct, distinct_eq_self h]
  obtain ⟨rest, hr⟩ := prefix_foldl_addDistinct more blobs
  rw [← hr, take_left]

lemma length_distinct : (distinct blobs).length = blobs.dedup.length := by
  refine List.Perm.length_eq ((perm_ext_iff_of_nodup nodup_distinct
    (nodup_dedup blobs)).2 fun b => ?_)
  rw [mem_distinct, mem_dedup]

lemma mem_take_addDistinct {b : Bytes} : b ∈ (addDistinct blobs blob).take maxResults ↔
      b ∈ blobs.take maxResults ∨ blob = b ∧ blobs.length < maxResults := by
  rw [addDistinct]
  by_cases hl : blobs.length < maxResults
  · have ht : blobs.take maxResults = blobs := take_of_length_le hl.le
    have ht' : (blobs ++ [blob]).take maxResults = blobs ++ [blob] :=
      take_of_length_le (by rw [length_append, length_singleton]; omega)
    split_ifs with hb
    · rw [ht]
      constructor
      · exact .inl
      · rintro (h | ⟨rfl, -⟩)
        · exact h
        · exact contains_iff_mem.1 hb
    · rw [ht, ht']
      simp [hl, eq_comm]
  · split_ifs
    · simp [hl]
    · rw [take_append_of_le_length (by omega)]
      simp [hl]

lemma mem_take_distinct : blob ∈ (distinct blobs).take maxResults ↔
      ∃ before after, blobs = before ++ blob :: after ∧ before.dedup.length < maxResults := by
  induction blobs using reverseRecOn with
  | nil => simp [distinct]
  | append_singleton blobs b ih =>
    rw [distinct_concat, mem_take_addDistinct, ih, length_distinct]
    constructor
    · rintro (⟨before, after, rfl, hlt⟩ | ⟨rfl, hlt⟩)
      · exact ⟨before, after ++ [b], by simp, hlt⟩
      · exact ⟨blobs, [], rfl, hlt⟩
    · rintro ⟨before, after, heq, hlt⟩
      rcases eq_nil_or_concat after with rfl | ⟨after, b', rfl⟩
      · obtain ⟨hblobs, hb⟩ := append_inj' heq rfl
        subst hblobs
        exact .inr ⟨head_eq_of_cons_eq hb, hlt⟩
      · have heq' : blobs ++ [b] = (before ++ blob :: after) ++ [b'] := by simpa using heq
        exact .inl ⟨before, after, (append_inj' heq' rfl).1, hlt⟩

lemma addBatch_take : ∀ (batch blobs : List Bytes),
    (addBatch maxResults (blobs.take maxResults) batch).1 =
      (batch.foldl addDistinct blobs).take maxResults
  | [], _ => rfl
  | b :: batch, blobs => by
    rw [addBatch, foldl_cons]
    by_cases hf : maxResults ≤ blobs.length
    · -- Full: whatever is added comes after the cap.
      have hl : maxResults ≤ (blobs.take maxResults).length := by
        rw [length_take]
        omega
      obtain ⟨more, hm⟩ := (prefix_addDistinct).trans (prefix_foldl_addDistinct batch _)
      rw [if_pos hl, ← hm, take_append_of_le_length hf]
    · have ht : blobs.take maxResults = blobs := take_of_length_le (by omega)
      rw [ht, if_neg hf, addDistinct]
      simp only [contains_iff_mem]
      split_ifs with hb
      · rw [← addBatch_take, ht]
      have ht' : (blobs ++ [b]).take maxResults = blobs ++ [b] := by
        refine take_of_length_le ?_
        rw [length_append, length_singleton]
        omega
      rw [← addBatch_take, ht']

namespace DiscoveryRouter

variable {router : DiscoveryRouter}

lemma blobs_join {out : FetchSummary} {ch : DiscoveryChannel}
    (h : out.blobs = blobs.take router.config.fetchMaxResults) : (router.join ih out ch).blobs =
      ((ch.answer ih).foldl addDistinct blobs).take router.config.fetchMaxResults := by
  rw [join, DiscoveryChannel.answer]
  rcases ch.fetch ih with _ | (e | batch)
  · exact h
  · exact h
  · simp only [Option.getD_some, h]
    exact addBatch_take batch blobs

lemma blobs_foldl_join : ∀ (channels : List DiscoveryChannel) (out : FetchSummary)
    (blobs : List Bytes), out.blobs = blobs.take router.config.fetchMaxResults →
    (channels.foldl (router.join ih) out).blobs =
      ((channels.flatMap fun ch => ch.answer ih).foldl addDistinct blobs).take
        router.config.fetchMaxResults
  | [], _, _, h => h
  | ch :: channels, out, blobs, h => by
    rw [foldl_cons, flatMap_cons, foldl_append]
    exact blobs_foldl_join channels _ _ (blobs_join h)

lemma blobs_fetch : (router.fetch ih).blobs =
      (distinct (router.answers ih)).take router.config.fetchMaxResults :=
  blobs_foldl_join router.channels _ [] (by simp)

end DiscoveryRouter

section

variable {S : RendezvousSuite} {E : Ed25519} {c : ClientSubscriber} {epoch : ℕ} {now : UInt64}
  {plaintext blob : Bytes} {ann : Announcement} {rev : Revocation}

lemma header_of_decode_announcement (h : decode plaintext = .ok ann) :
    ¬ plaintext.length < 4 ∧ plaintext.getD 2 0 = docTypeAnnouncement := by
  unfold decode at h
  split_ifs at h with hl hm ht
  all_goals
    refine ⟨?_, not_not.1 ht⟩
    omega

namespace ClientSubscriber

lemma verifyAnnouncement_eq_ok {v : Verified} : c.verifyAnnouncement E plaintext now = .ok v ↔
      ∃ ann, decode plaintext = .ok ann ∧ ann.verify E c.operatorEd25519Pk = .ok () ∧
        announcementInTime ann now = .ok () ∧ v = .announcement ann := by
  rw [verifyAnnouncement]
  rcases decode plaintext with e | ann
  · simp
  · simp only [Except.ok.injEq, exists_eq_left']
    rcases ann.verify E c.operatorEd25519Pk with e | u <;>
      rcases announcementInTime ann now with e' | u' <;> simp [@eq_comm _ v]

lemma verifyRevocation_eq_ok {v : Verified} : c.verifyRevocation E plaintext now = .ok v ↔
      ∃ rev, Revocation.decode plaintext = .ok rev ∧ rev.verify E c.operatorEd25519Pk = .ok () ∧
        revocationInTime rev now = .ok () ∧ v = .revocation rev := by
  rw [verifyRevocation]
  rcases Revocation.decode plaintext with e | rev
  · simp
  · simp only [Except.ok.injEq, exists_eq_left']
    rcases rev.verify E c.operatorEd25519Pk with e | u <;>
      rcases revocationInTime rev now with e' | u' <;> simp [@eq_comm _ v]

lemma verifyOne_announcement_iff : c.verifyOne S E blob epoch now = .ok (.announcement ann) ↔
      ∃ plaintext, c.openAt S epoch blob = .ok plaintext ∧
        decode plaintext = .ok ann ∧ ann.verify E c.operatorEd25519Pk = .ok () ∧
        announcementInTime ann now = .ok () := by
  rw [verifyOne]
  rcases c.openAt S epoch blob with e | plaintext
  · simp
  simp only [Except.ok.injEq, exists_eq_left']
  constructor
  · intro h
    split_ifs at h
    · obtain ⟨ann', hd, hv, ht, ha⟩ := verifyAnnouncement_eq_ok.1 h
      obtain rfl := Verified.announcement.inj ha
      exact ⟨hd, hv, ht⟩
    · obtain ⟨rev, -, -, -, hr⟩ := verifyRevocation_eq_ok.1 h
      cases hr
  · rintro ⟨hd, hv, ht⟩
    obtain ⟨hl, hty⟩ := header_of_decode_announcement hd
    rw [if_neg hl, if_pos hty]
    exact verifyAnnouncement_eq_ok.2 ⟨ann, hd, hv, ht, rfl⟩

lemma verifyOne_revocation (h : c.verifyOne S E blob epoch now = .ok (.revocation rev)) :
    ∃ plaintext, c.openAt S epoch blob = .ok plaintext ∧
      Revocation.decode plaintext = .ok rev ∧ rev.verify E c.operatorEd25519Pk = .ok () := by
  rw [verifyOne] at h
  rcases ho : c.openAt S epoch blob with e | plaintext <;> rw [ho] at h
  · cases h
  refine ⟨plaintext, rfl, ?_⟩
  simp only at h
  split_ifs at h
  · obtain ⟨ann, -, -, -, ha⟩ := verifyAnnouncement_eq_ok.1 h
    cases ha
  · obtain ⟨rev', hd, hv, -, hr⟩ := verifyRevocation_eq_ok.1 h
    obtain rfl := Verified.revocation.inj hr
    exact ⟨hd, hv⟩

lemma mem_announcements_foldl : ∀ (blobs : List Bytes) (out : DiscoveryFetch),
    ann ∈ (blobs.foldl (c.accept S E epoch now) out).announcements ↔ ann ∈ out.announcements ∨
      ∃ blob ∈ blobs, c.verifyOne S E blob epoch now = .ok (.announcement ann)
  | [], out => by simp
  | b :: blobs, out => by
    rw [foldl_cons, mem_announcements_foldl, accept]
    rcases hb : c.verifyOne S E b epoch now with e | (ann' | rev')
    · simp [hb]
    · simp [hb, or_assoc, eq_comm]
    · simp [hb]

lemma mem_revocations_foldl : ∀ (blobs : List Bytes) (out : DiscoveryFetch),
    rev ∈ (blobs.foldl (c.accept S E epoch now) out).revocations ↔ rev ∈ out.revocations ∨
      ∃ blob ∈ blobs, c.verifyOne S E blob epoch now = .ok (.revocation rev)
  | [], out => by simp
  | b :: blobs, out => by
    rw [foldl_cons, mem_revocations_foldl, accept]
    rcases hb : c.verifyOne S E b epoch now with e | (ann' | rev')
    · simp [hb]
    · simp [hb]
    · simp [hb, or_assoc, eq_comm]

/-- The blob opens to an announcement. -/
def Announces (S : RendezvousSuite) (c : ClientSubscriber) (epoch : ℕ) (blob : Bytes)
    (ann : Announcement) : Prop :=
  ∃ plaintext, c.openAt S epoch blob = .ok plaintext ∧ Announcement.decode plaintext = .ok ann

/-- The blob opens to a revocation. -/
def Revokes (S : RendezvousSuite) (c : ClientSubscriber) (epoch : ℕ) (blob : Bytes)
    (rev : Revocation) : Prop :=
  ∃ plaintext, c.openAt S epoch blob = .ok plaintext ∧ Revocation.decode plaintext = .ok rev

variable {router : DiscoveryRouter}

lemma mem_announcements_fetch : ann ∈ (c.fetchForEpoch S E router epoch now).announcements ↔
      ann.verify E c.operatorEd25519Pk = .ok () ∧ announcementInTime ann now = .ok () ∧
        ∃ blob ∈ (distinct (router.answers (c.infoHashAt S epoch))).take
          router.config.fetchMaxResults, c.Announces S epoch blob ann := by
  rw [fetchForEpoch, mem_announcements_foldl, DiscoveryRouter.blobs_fetch]
  simp only [not_mem_nil, false_or, verifyOne_announcement_iff, Announces]
  constructor
  · rintro ⟨blob, hb, plaintext, ho, hd, hv, ht⟩
    exact ⟨hv, ht, blob, hb, plaintext, ho, hd⟩
  · rintro ⟨hv, ht, blob, hb, plaintext, ho, hd⟩
    exact ⟨blob, hb, plaintext, ho, hd, hv, ht⟩

lemma of_mem_revocations_fetch (h : rev ∈ (c.fetchForEpoch S E router epoch now).revocations) :
    rev.verify E c.operatorEd25519Pk = .ok () ∧
      ∃ blob ∈ (distinct (router.answers (c.infoHashAt S epoch))).take
        router.config.fetchMaxResults, c.Revokes S epoch blob rev := by
  rw [fetchForEpoch, mem_revocations_foldl, DiscoveryRouter.blobs_fetch] at h
  obtain ⟨blob, hb, hr⟩ := h.resolve_left not_mem_nil
  obtain ⟨plaintext, ho, hd, hv⟩ := verifyOne_revocation hr
  exact ⟨hv, blob, hb, plaintext, ho, hd⟩

lemma announcementInTime_of_window (h₀ : ann.issuedAt ≤ now) (h₁ : now < ann.expiresAt) :
    announcementInTime ann now = .ok () := by
  rw [announcementInTime, if_neg (UInt64.not_lt.2 h₀), if_neg (UInt64.not_le.2 h₁), ite_self]

end ClientSubscriber

lemma exists_batch_of_mem_take {router : DiscoveryRouter}
    (h : blob ∈ (distinct (router.answers ih)).take maxResults) :
    ∃ ch ∈ router.channels, ∃ batch, ch.fetch ih = some (.ok batch) ∧ blob ∈ batch := by
  have hm := mem_distinct.1 (mem_of_mem_take h)
  obtain ⟨ch, hch, hb⟩ := mem_flatMap.1 hm
  rw [DiscoveryChannel.answer] at hb
  split at hb
  next batch hbt => exact ⟨ch, hch, batch, hbt, hb⟩
  next => cases hb

/-- An announcement is returned exactly if it comes before as many distinct blobs as are taken. -/
theorem fetch_not_starved (S : RendezvousSuite) (E : Ed25519) (c : ClientSubscriber)
    (router : DiscoveryRouter) (epoch : ℕ) (now : UInt64) :
    (∀ ch ∈ router.channels, ∀ batch, ch.fetch (c.infoHashAt S epoch) = some (.ok batch) →
      ∀ blob ∈ batch, ∀ ann, c.Announces S epoch blob ann →
        ann.verify E c.operatorEd25519Pk = .ok () → ann.issuedAt ≤ now → now < ann.expiresAt →
        (ann ∈ (c.fetchForEpoch S E router epoch now).announcements ↔
          ∃ before blob after, router.answers (c.infoHashAt S epoch) = before ++ blob :: after ∧
            c.Announces S epoch blob ann ∧
            before.dedup.length < router.config.fetchMaxResults)) ∧
    (∀ ann ∈ (c.fetchForEpoch S E router epoch now).announcements,
      ann.verify E c.operatorEd25519Pk = .ok () ∧
      ∃ ch ∈ router.channels, ∃ batch, ch.fetch (c.infoHashAt S epoch) = some (.ok batch) ∧
        ∃ blob ∈ batch, c.Announces S epoch blob ann) ∧
    ∀ rev ∈ (c.fetchForEpoch S E router epoch now).revocations,
      rev.verify E c.operatorEd25519Pk = .ok () ∧
      ∃ ch ∈ router.channels, ∃ batch, ch.fetch (c.infoHashAt S epoch) = some (.ok batch) ∧
        ∃ blob ∈ batch, c.Revokes S epoch blob rev := by
  refine ⟨fun ch hch batch hb blob hbl ann ha hv h₀ h₁ => ?_, fun ann ha => ?_, fun rev hr => ?_⟩
  · have ht := announcementInTime_of_window h₀ h₁
    rw [mem_announcements_fetch, and_iff_right hv, and_iff_right ht]
    constructor
    · rintro ⟨blob', hb', ha'⟩
      obtain ⟨before, after, heq, hlt⟩ := mem_take_distinct.1 hb'
      exact ⟨before, blob', after, heq, ha', hlt⟩
    · rintro ⟨before, blob', after, heq, ha', hlt⟩
      exact ⟨blob', mem_take_distinct.2 ⟨before, after, heq, hlt⟩, ha'⟩
  · obtain ⟨hv, -, blob, hbl, ha'⟩ := mem_announcements_fetch.1 ha
    obtain ⟨ch, hch, batch, hb, hm⟩ := exists_batch_of_mem_take hbl
    exact ⟨hv, ch, hch, batch, hb, blob, hm, ha'⟩
  · obtain ⟨hv, blob, hbl, hr'⟩ := of_mem_revocations_fetch hr
    obtain ⟨ch, hch, batch, hb, hm⟩ := exists_batch_of_mem_take hbl
    exact ⟨hv, ch, hch, batch, hb, blob, hm, hr'⟩

def sampleAnnouncement : Announcement :=
  let unsigned : Announcement := ⟨100, 200, .replicate 32 1, .replicate 32 2, 1,
    .ipv4 (vec 4 [198, 51, 100, 7]) 443, [], .replicate 64 0⟩
  { unsigned with signature := echoScheme.sign (.replicate 32 0) unsigned.encodeSignedPrefix }

def sampleBlob : Bytes :=
  List.replicate 12 0 ++ sampleAnnouncement.encode ++ List.replicate 16 0

lemma sampleBlob_announces : (new (.replicate 32 0) (.replicate 32 0)).Announces
    plainRendezvous 7 sampleBlob sampleAnnouncement :=
  ⟨sampleAnnouncement.encode, by decide +kernel, by decide +kernel⟩

def fixedChannel (name : String) (blobs : List Bytes) : DiscoveryChannel :=
  ⟨name, fun _ => some (.ok blobs)⟩

def junk (n : ℕ) : List Bytes := (List.range n).map fun i => [UInt8.ofNat i]

def junkRouter (n : ℕ) : DiscoveryRouter :=
  ⟨[fixedChannel "junk" (junk n), fixedChannel "honest" [sampleBlob]], {}⟩

theorem fetch_not_starved_by_ten :
    sampleAnnouncement ∈ ((new (.replicate 32 0) (.replicate 32 0)).fetchForEpoch
      plainRendezvous echoScheme (junkRouter 10) 7 150).announcements :=
  ((fetch_not_starved plainRendezvous echoScheme
    (new (.replicate 32 0) (.replicate 32 0)) (junkRouter 10) 7 150).1 _
    (.tail _ (.head _)) _ rfl sampleBlob (.head _) _ sampleBlob_announces (by decide +kernel)
    (by decide) (by decide)).2
    ⟨junk 10, sampleBlob, [], by decide +kernel, sampleBlob_announces, by decide +kernel⟩

/-- 256 junk blobs come before a valid announcement, which is not returned. -/
theorem fetch_starved_by_flood :
    sampleAnnouncement ∉ ((new (.replicate 32 0) (.replicate 32 0)).fetchForEpoch
      plainRendezvous echoScheme (junkRouter 256) 7 150).announcements ∧
    (new (.replicate 32 0) (.replicate 32 0)).Announces plainRendezvous 7
      sampleBlob sampleAnnouncement ∧
    sampleAnnouncement.verify echoScheme (.replicate 32 0) = .ok () ∧
    sampleAnnouncement.issuedAt ≤ 150 ∧ 150 < sampleAnnouncement.expiresAt := by
  refine ⟨?_, sampleBlob_announces, by decide +kernel, by decide, by decide⟩
  have hjn : (junk 256).Nodup := by
    refine List.Nodup.map_on (fun i hi j hj hij => ?_) List.nodup_range
    have hm := congrArg UInt8.toNat (List.head_eq_of_cons_eq hij)
    rw [List.mem_range] at hi hj
    simpa [Nat.mod_eq_of_lt hi, Nat.mod_eq_of_lt hj] using hm
  have hl : (junk 256).length = 256 := by simp [junk]
  have hb := take_distinct_append hjn [sampleBlob]
  rw [hl] at hb
  have ha (ih) : (junkRouter 256).answers ih = junk 256 ++ [sampleBlob] := rfl
  have hmx : (junkRouter 256).config.fetchMaxResults = 256 := rfl
  rw [mem_announcements_fetch, ha, hmx, hb]
  -- No junk is long enough to be opened.
  rintro ⟨-, -, blob, hbl, plaintext, ho, -⟩
  obtain ⟨i, -, rfl⟩ := List.mem_map.1 hbl
  simp [new, openAt, openBlob, openWith, sealNonceLen] at ho

end

end Mirage.Discovery
