import Mirage.Discovery.BridgePool
import Mirage.Proofs.Descriptor

/-!
# Revoked bridges stay out

The pool remembers a revocation for a week from its issue (`Forgotten`), and of a key that it no
longer has it remembers nothing (`Lapses`).
-/

namespace Mirage.Discovery

open Words Runs PoolState AList Option
open List hiding Vector
open Maps (size retain mem_of_lookup mem_iff_lookup)
open Onion.OnionDescriptor (echoScheme)

variable {rev rev' : Revocation} {ann : Announcement} {s : PoolState} {rep : ApplyReport}
  {sr : PoolState × ApplyReport} {k : Bytes32} {e : BridgeEntry} {b : BlocklistEntry}
  {now : UInt64} {walk : Walk}

lemma Walk.mem_iter {bridges : Bridges} :
    ⟨k, e⟩ ∈ walk.iter bridges ↔ bridges.lookup k = some e := by
  rw [(walk.perm bridges).mem_iff, ← mem_lookup_iff]
  rfl

lemma forgetAt_mono {a b : UInt64} (h : a ≤ b) : forgetAt a ≤ forgetAt b := by
  rw [UInt64.le_iff_toNat_le] at h ⊢
  have hlt (n : ℕ) : min n (2 ^ 64 - 1) < UInt64.size := by
    simp only [UInt64.size]
    omega
  rw [forgetAt, forgetAt, UInt64.toNat_ofNat_of_lt' (hlt _), UInt64.toNat_ofNat_of_lt' (hlt _)]
  omega

lemma mem_of_maxBy {α : Type*} {cmp : α → α → Ordering} {l : List α} {a : α}
    (h : maxBy cmp l = some a) : a ∈ l := by
  cases l with
  | nil => cases h
  | cons a₀ l =>
    obtain rfl := some.inj h
    -- Whichever of the two is taken, it is one of the list.
    have hf : ∀ l x,
        l.foldl (fun x y => if cmp x y = .gt then x else y) x ∈ x :: l := by
      intro l
      induction l with
      | nil => simp
      | cons y l ih =>
        intro x
        rw [foldl_cons]
        split_ifs
        · exact mem_cons.2 ((mem_cons.1 (ih x)).imp_right (mem_cons_of_mem y))
        · exact mem_cons_of_mem x (ih y)
    exact hf l a₀

namespace PoolState

/-- The blocklist has the key, for a revocation that is at least as new. -/
def Blocks (s : PoolState) (rev : Revocation) : Prop :=
  ∃ b, s.blocklist.lookup rev.targetEd25519Pk = some b ∧ rev.issuedAt ≤ b.issuedAt

/-- What is blocked is blocked for a week from the issue. -/
def Remembers (s : PoolState) : Prop :=
  ∀ k b, s.blocklist.lookup k = some b → b.forgetAt = forgetAt b.issuedAt

lemma revoke_bridges : (revoke sr rev).1.bridges = sr.1.bridges.erase rev.targetEd25519Pk := by
  rw [revoke]
  split_ifs <;> rfl

lemma revoke_blocklist : (revoke sr rev).1.blocklist =
      if ∃ b ∈ sr.1.blocklist.lookup rev.targetEd25519Pk, rev.issuedAt ≤ b.issuedAt then
        sr.1.blocklist
      else sr.1.blocklist.insert rev.targetEd25519Pk
        ⟨rev.reason, rev.issuedAt, forgetAt rev.issuedAt⟩ := by
  rw [revoke]
  split_ifs <;> rfl

lemma blocks_revoke_self : (revoke sr rev).1.Blocks rev := by
  rw [Blocks, revoke_blocklist]
  split_ifs with h
  · obtain ⟨b, hb, hle⟩ := h
    exact ⟨b, hb, hle⟩
  · exact ⟨_, lookup_insert _, UInt64.le_refl rev.issuedAt⟩

lemma Blocks.revoke (h : sr.1.Blocks rev) : (revoke sr rev').1.Blocks rev := by
  obtain ⟨b, hb, hle⟩ := h
  rw [Blocks, revoke_blocklist]
  split_ifs with hex
  · exact ⟨b, hb, hle⟩
  by_cases hk : rev.targetEd25519Pk = rev'.targetEd25519Pk
  · -- A newer revocation has taken the place.
    rw [hk] at hb ⊢
    refine ⟨_, lookup_insert _, ?_⟩
    have hn : ¬ rev'.issuedAt ≤ b.issuedAt := fun hl' => hex ⟨b, hb, hl'⟩
    exact UInt64.le_trans hle (UInt64.le_of_lt (UInt64.not_le.1 hn))
  · rw [lookup_insert_ne hk]
    exact ⟨b, hb, hle⟩

lemma Remembers.revoke (h : sr.1.Remembers) : (revoke sr rev).1.Remembers := by
  rw [Remembers, revoke_blocklist]
  split_ifs
  · exact h
  intro k b hb
  rcases Maps.lookup_of_insert hb with ⟨-, rfl⟩ | hb
  · rfl
  · exact h k b hb

lemma lookup_foldl_revoke : ∀ (revs : List Revocation) (sr : PoolState × ApplyReport),
    (revs.foldl revoke sr).1.bridges.lookup k = some e →
      sr.1.bridges.lookup k = some e ∧ ∀ rev ∈ revs, rev.targetEd25519Pk ≠ k
  | [], _, h => ⟨h, nofun⟩
  | rev :: revs, sr, h => by
    obtain ⟨h, hr⟩ := lookup_foldl_revoke revs _ h
    rw [revoke_bridges, Maps.lookup_erase_eq_ite] at h
    split_ifs at h with hk
    refine ⟨h, fun rev' hr' => ?_⟩
    rcases mem_cons.1 hr' with rfl | hr'
    · exact fun hk' => hk hk'.symm
    · exact hr rev' hr'

lemma remembers_foldl_revoke : ∀ (revs : List Revocation) (sr : PoolState × ApplyReport),
    sr.1.Remembers → (revs.foldl revoke sr).1.Remembers
  | [], _, h => h
  | _ :: revs, _, h => remembers_foldl_revoke revs _ h.revoke

lemma blocks_foldl_revoke : ∀ (revs : List Revocation) (sr : PoolState × ApplyReport),
    sr.1.Blocks rev ∨ rev ∈ revs → (revs.foldl revoke sr).1.Blocks rev
  | [], _, h => h.resolve_right not_mem_nil
  | rev' :: revs, sr, h => by
    refine blocks_foldl_revoke revs _ ?_
    rcases h with h | h
    · exact .inl h.revoke
    · rcases mem_cons.1 h with rfl | h
      · exact .inl blocks_revoke_self
      · exact .inr h

lemma announce_blocklist : (announce now sr ann).1.blocklist = sr.1.blocklist := by
  rw [announce]
  simp only
  split_ifs <;> rfl

lemma blocklist_foldl_announce : ∀ (anns : List Announcement)
    (sr : PoolState × ApplyReport), (anns.foldl (announce now) sr).1.blocklist = sr.1.blocklist
  | [], _ => rfl
  | ann :: anns, sr => by
    rw [foldl_cons, blocklist_foldl_announce, announce_blocklist]

def announced (now : UInt64) (ann : Announcement) (entry : BridgeEntry) : BridgeEntry :=
  if entry.announcementIssuedAt ≤ ann.issuedAt then entry.update ann now else entry

lemma announce_bridges (hb : ann.bridgeEd25519Pk ∉ sr.1.blocklist) :
    (announce now sr ann).1.bridges = sr.1.bridges.insert ann.bridgeEd25519Pk
      (announced now ann ((sr.1.bridges.lookup ann.bridgeEd25519Pk).getD
        (.fromAnnouncement ann now))) := by
  rw [announce, announced]
  simp only [if_neg hb]
  split_ifs <;> rfl

/-- The entries are under their own key and meet `P`. -/
def Keeps (P : BridgeEntry → Prop) (s : PoolState) : Prop :=
  ∀ k e, s.bridges.lookup k = some e → e.bridgeEd25519Pk = k ∧ P e

variable {P Q : BridgeEntry → Prop}

lemma mem_announce (h : k ∈ sr.1.bridges) : k ∈ (announce now sr ann).1.bridges := by
  by_cases hb : ann.bridgeEd25519Pk ∈ sr.1.blocklist
  · simpa only [PoolState.announce, if_pos hb] using h
  · rw [announce_bridges hb]
    exact (mem_insert _).2 (.inr h)

/-- What an announcement can leave behind: of a new key, or not older than what it replaces. -/
structure Leaves (P : BridgeEntry → Prop) (s : PoolState) (ann : Announcement) (e : BridgeEntry) :
    Prop where
  key : e.bridgeEd25519Pk = ann.bridgeEd25519Pk
  issued : e.announcementIssuedAt = ann.issuedAt
  expires : e.announcementExpiresAt = ann.expiresAt
  replaced : ann.bridgeEd25519Pk ∉ s.bridges ∨ ∃ e₀ : BridgeEntry,
    e₀.bridgeEd25519Pk = ann.bridgeEd25519Pk ∧ P e₀ ∧ e₀.announcementIssuedAt ≤ ann.issuedAt

lemma Keeps.announce (h : sr.1.Keeps P)
    (ha : ann.bridgeEd25519Pk ∉ sr.1.blocklist → ∀ e, Leaves P sr.1 ann e → P e) :
    (announce now sr ann).1.Keeps P := by
  by_cases hb : ann.bridgeEd25519Pk ∈ sr.1.blocklist
  · rw [PoolState.announce]
    simp only [if_pos hb]
    exact h
  intro k e he
  rw [announce_bridges hb] at he
  rcases Maps.lookup_of_insert he with ⟨rfl, rfl⟩ | he
  · rw [announced]
    rcases hl : sr.1.bridges.lookup ann.bridgeEd25519Pk with _ | e
    · -- A new entry is at once updated with its own announcement.
      have hle : (BridgeEntry.fromAnnouncement ann now).announcementIssuedAt ≤ ann.issuedAt :=
        UInt64.le_refl ann.issuedAt
      rw [getD_none, if_pos hle]
      exact ⟨rfl, ha hb _ ⟨rfl, rfl, rfl, .inl (lookup_eq_none.1 hl)⟩⟩
    · obtain ⟨hpk, hP⟩ := h _ e hl
      rw [getD_some]
      split_ifs with hn
      · exact ⟨hpk, ha hb _ ⟨hpk, rfl, rfl, .inr ⟨e, hpk, hP, hn⟩⟩⟩
      · exact ⟨hpk, hP⟩
  · exact h k e he

lemma keeps_foldl_announce : ∀ (anns : List Announcement) (sr : PoolState × ApplyReport),
    sr.1.Keeps P → (∀ ann ∈ anns, ann.bridgeEd25519Pk ∉ sr.1.blocklist →
      ∀ e, Leaves P sr.1 ann e → P e) →
    (anns.foldl (announce now) sr).1.Keeps P
  | [], _, h, _ => h
  | ann :: anns, sr, h, ha => by
    refine keeps_foldl_announce anns _ (h.announce (ha ann mem_cons_self)) ?_
    rw [announce_blocklist]
    intro ann' ha' hb e he
    -- A key that is new later on in the list was new before.
    exact ha ann' (mem_cons_of_mem ann ha') hb e
      { he with replaced := he.replaced.imp_left fun hn hm => hn (mem_announce hm) }

lemma lookup_gcExpired (h : (gcExpired walk now sr).1.bridges.lookup k = some e) :
    sr.1.bridges.lookup k = some e ∧ now < e.announcementExpiresAt := by
  rw [gcExpired] at h
  simp only [Maps.lookup_foldl_erase] at h
  split_ifs at h with hk
  refine ⟨h, UInt64.not_le.1 fun hle => hk ?_⟩
  refine mem_map.2 ⟨⟨k, e⟩, mem_filter.2 ⟨Walk.mem_iter.2 h, ?_⟩, rfl⟩
  exact decide_eq_true hle

lemma lookup_evictLru : ∀ n sr,
    (evictLru walk n sr).1.bridges.lookup k = some e → sr.1.bridges.lookup k = some e
  | 0, _, h => h
  | n + 1, (s, rep), h => by
    rw [evictLru] at h
    split at h
    · exact Maps.lookup_of_erase (lookup_evictLru n _ h)
    · exact h

lemma evictLru_blocklist : ∀ n sr,
    (evictLru walk n sr).1.blocklist = sr.1.blocklist
  | 0, _ => rfl
  | n + 1, (s, rep) => by
    rw [evictLru]
    split
    · exact evictLru_blocklist n _
    · rfl

def absorbed (anns : List Announcement) (revs : List Revocation) (now : UInt64) (s : PoolState) :
    PoolState :=
  (anns.foldl (announce now) (revs.foldl revoke (s, ⟨0, 0, 0, 0, 0, []⟩))).1

variable {anns : List Announcement} {revs : List Revocation}

lemma lookup_applyFetch (h : (s.applyFetch walk anns revs now).1.bridges.lookup k = some e) :
    (s.absorbed anns revs now).bridges.lookup k = some e ∧
      (0 < now → now < e.announcementExpiresAt) := by
  have hl := lookup_evictLru _ _ h
  split_ifs at hl with hn
  · exact (lookup_gcExpired hl).imp_right fun hlt _ => hlt
  · exact ⟨hl, fun hp => absurd hp hn⟩

lemma applyFetch_blocklist (hn : 0 < now) : (s.applyFetch walk anns revs now).1.blocklist =
      retain (fun b => now < b.forgetAt)
        (revs.foldl revoke (s, ⟨0, 0, 0, 0, 0, []⟩)).1.blocklist := by
  rw [applyFetch]
  simp only [if_pos hn, evictLru_blocklist]
  rw [gcBlocklist, gcExpired]
  simp only [blocklist_foldl_announce]

variable {f : BridgeEntry → BridgeEntry}

lemma Keeps.modify (h : s.Keeps P)
    (hf : ∀ e, P e → (f e).bridgeEd25519Pk = e.bridgeEd25519Pk ∧ P (f e)) :
    (s.modify k f).Keeps P := by
  rw [PoolState.modify]
  split
  · next e he =>
    intro k' e' he'
    rcases Maps.lookup_of_insert he' with ⟨rfl, rfl⟩ | he'
    · obtain ⟨hpk, hP⟩ := h _ e he
      exact ⟨(hf e hP).1.trans hpk, (hf e hP).2⟩
    · exact h k' e' he'
  · exact h

lemma modify_blocklist (f : BridgeEntry → BridgeEntry) :
    (s.modify k f).blocklist = s.blocklist := by
  rw [modify]
  split <;> rfl

lemma Keeps.snapshot (h : s.Keeps P) (he : e ∈ s.snapshot walk) : P e := by
  obtain ⟨⟨k, e⟩, hm, rfl⟩ := mem_map.1 he
  exact (h k e (Walk.mem_iter.1 hm)).2

lemma Keeps.select {policy : SelectionPolicy} (h : s.Keeps P)
    (he : (s.select walk policy).1 = some e) : P e := by
  cases policy with
  | bestScore =>
    simp only [PoolState.select] at he
    split_ifs at he
    have hm := mem_of_maxBy he
    exact h.snapshot hm
  | roundRobin =>
    simp only [PoolState.select] at he
    split_ifs at he
    obtain ⟨k, -, hk⟩ := bind_eq_some_iff.1 he
    exact (h k e hk).2

variable (policy : SelectionPolicy)

lemma select_bridges : (s.select walk policy).2.bridges = s.bridges := by
  cases policy <;> simp only [select] <;> split_ifs <;> rfl

lemma select_blocklist : (s.select walk policy).2.blocklist = s.blocklist := by
  cases policy <;> simp only [select] <;> split_ifs <;> rfl

variable {past : List PoolState}

/-- The entry is not older than any that the pool had for its key. -/
def Current (past : List PoolState) (e : BridgeEntry) : Prop :=
  ∀ q ∈ past, ∀ e₀ ∈ q.bridges.lookup e.bridgeEd25519Pk,
    e₀.announcementIssuedAt ≤ e.announcementIssuedAt

lemma mem_foldl_revoke : ∀ (revs : List Revocation) (sr : PoolState × ApplyReport),
    k ∈ sr.1.bridges ∨ k ∈ sr.1.blocklist →
      k ∈ (revs.foldl revoke sr).1.bridges ∨ k ∈ (revs.foldl revoke sr).1.blocklist
  | [], _, h => h
  | rev :: revs, sr, h => by
    refine mem_foldl_revoke revs _ ?_
    by_cases hk : k = rev.targetEd25519Pk
    · obtain ⟨b, hb, -⟩ : (revoke sr rev).1.Blocks rev := blocks_revoke_self
      rw [hk]
      exact .inr (mem_of_lookup hb)
    · rw [revoke_bridges, revoke_blocklist]
      refine h.imp (fun h => mem_erase.2 ⟨hk, h⟩) fun h => ?_
      split_ifs
      · exact h
      · exact (mem_insert _).2 (.inr h)

/-- An announcement of a forgotten key, older than one the pool had of it, has expired. -/
def Lapsed (past : List PoolState) (anns : List Announcement) (revs : List Revocation)
    (now : UInt64) (s : PoolState) : Prop :=
  ∀ ann ∈ anns, ann.bridgeEd25519Pk ∉ s.bridges → ann.bridgeEd25519Pk ∉ s.blocklist →
    (∀ rev ∈ revs, rev.targetEd25519Pk ≠ ann.bridgeEd25519Pk) →
    ∀ q ∈ past, ∀ e₀ ∈ q.bridges.lookup ann.bridgeEd25519Pk,
      ann.issuedAt < e₀.announcementIssuedAt → 0 < now ∧ ann.expiresAt ≤ now
deriving Decidable

lemma Lapsed.current_or_expired (h : s.Lapsed past anns revs now) (ha : ann ∈ anns)
    (hn : ann.bridgeEd25519Pk ∉ s.bridges)
    (hb : ann.bridgeEd25519Pk ∉ (revs.foldl revoke (s, ⟨0, 0, 0, 0, 0, []⟩)).1.blocklist)
    (hk : e.bridgeEd25519Pk = ann.bridgeEd25519Pk) (hi : e.announcementIssuedAt = ann.issuedAt) :
    Current past e ∨ 0 < now ∧ ann.expiresAt ≤ now := by
  have hbl : ann.bridgeEd25519Pk ∉ s.blocklist := by
    intro hm
    have ha := (mem_foldl_revoke revs (s, _) (.inr hm)).resolve_right hb
    obtain ⟨e₀, he₀⟩ := mem_iff_lookup.1 ha
    have hl := (lookup_foldl_revoke revs _ he₀).1
    exact hn (mem_of_lookup hl)
  have hrv : ∀ rev ∈ revs, rev.targetEd25519Pk ≠ ann.bridgeEd25519Pk := by
    rintro rev hr heq
    obtain ⟨b, hl, -⟩ := blocks_foldl_revoke revs (s, ⟨0, 0, 0, 0, 0, []⟩) (.inr hr)
    rw [heq] at hl
    exact hb (mem_of_lookup hl)
  by_cases hex : 0 < now ∧ ann.expiresAt ≤ now
  · exact .inr hex
  refine .inl fun q hq e₀ he₀ => UInt64.not_lt.1 fun hlt => hex ?_
  rw [hk] at he₀
  rw [hi] at hlt
  exact h ann ha hn hbl hrv q hq e₀ he₀ hlt

lemma current_applyFetch (h : s.Keeps (Current past)) (hl : s.Lapsed past anns revs now) :
    (s.applyFetch walk anns revs now).1.Keeps (Current past) := by
  -- What is older than before has come in for a new key, and goes again as it has expired.
  have hk : (s.absorbed anns revs now).Keeps fun e => Current past e ∨
      e.bridgeEd25519Pk ∉ s.bridges ∧ 0 < now ∧ e.announcementExpiresAt ≤ now := by
    refine keeps_foldl_announce anns _ (fun k e he => ?_) fun ann ha hb e he => ?_
    · exact (h k e (lookup_foldl_revoke revs _ he).1).imp_right .inl
    by_cases hn : ann.bridgeEd25519Pk ∈ s.bridges
    · rcases he.replaced with habs | ⟨e₀, hk₀, hc | ⟨habs, -⟩, hle⟩
      · exact absurd ((mem_foldl_revoke revs (s, _) (.inl hn)).resolve_right hb) habs
      · refine .inl fun q hq e₁ he₁ => ?_
        rw [he.key, ← hk₀] at he₁
        rw [he.issued]
        exact UInt64.le_trans (hc q hq e₁ he₁) hle
      · exact absurd (hk₀ ▸ hn) habs
    · refine (hl.current_or_expired ha hn hb he.key he.issued).imp_right fun hex => ?_
      rw [he.key, he.expires]
      exact ⟨hn, hex⟩
  intro k e he
  obtain ⟨he, hlt⟩ := lookup_applyFetch he
  refine (hk k e he).imp_right fun hc => hc.resolve_right fun hex => ?_
  exact UInt64.not_le.2 (hlt hex.2.1) hex.2.2

end PoolState

namespace PoolHistory

variable {h : PoolHistory} {c : PoolCall}

/-- Fetches are applied in the order of time, and never without a clock. -/
def InOrder (h : PoolHistory) : PoolCall → Prop
  | .applyFetch _ _ _ now => 0 < now ∧ h.clock ≤ now
  | _ => True

/-- Once a revocation is forgotten, what comes of the announcements that it revokes has expired. -/
def Forgotten (h : PoolHistory) : PoolCall → Prop
  | .applyFetch _ anns revs now => ∀ ann ∈ anns, ∀ rev ∈ h.revoked ++ revs,
    rev.targetEd25519Pk = ann.bridgeEd25519Pk → ann.issuedAt ≤ rev.issuedAt →
      forgetAt rev.issuedAt ≤ now → ann.expiresAt ≤ now
  | _ => True

instance (h : PoolHistory) : DecidablePred h.InOrder := fun _ => by
  unfold InOrder
  split <;> infer_instance

instance (h : PoolHistory) : DecidablePred h.Forgotten := fun _ => by
  unfold Forgotten
  split <;> infer_instance

/-- The entry was announced after every revocation of its key. -/
def Newer (revoked : List Revocation) (e : BridgeEntry) : Prop :=
  ∀ rev ∈ revoked, rev.targetEd25519Pk = e.bridgeEd25519Pk → rev.issuedAt < e.announcementIssuedAt

/-- No entry is older than a revocation of its key that is still remembered. -/
structure Inv (h : PoolHistory) : Prop where
  newer : h.pool.Keeps (Newer h.revoked)
  remembers : h.pool.Remembers
  blocks : ∀ rev ∈ h.revoked, forgetAt rev.issuedAt ≤ h.clock ∨ h.pool.Blocks rev

lemma inv_init (maxBridges : ℕ) : (init maxBridges).Inv where
  newer k e he := by cases he
  remembers k b hb := by cases hb
  blocks := nofun

variable {revs : List Revocation}

lemma Inv.blocks_revoke (hi : h.Inv) (hr : rev ∈ h.revoked ++ revs) :
    forgetAt rev.issuedAt ≤ h.clock ∨
      (revs.foldl revoke (h.pool, ⟨0, 0, 0, 0, 0, []⟩)).1.Blocks rev := by
  rcases mem_append.1 hr with hr | hr
  · exact (hi.blocks rev hr).imp_right fun hb =>
      blocks_foldl_revoke revs _ (.inl hb)
  · exact .inr (blocks_foldl_revoke revs _ (.inr hr))

lemma Inv.newer_revoke (hi : h.Inv) (revs : List Revocation) :
    (revs.foldl revoke (h.pool, ⟨0, 0, 0, 0, 0, []⟩)).1.Keeps (Newer (h.revoked ++ revs)) := by
  intro k e he
  obtain ⟨he, hne⟩ := lookup_foldl_revoke revs _ he
  obtain ⟨hpk, hn⟩ := hi.newer k e he
  refine ⟨hpk, fun rev hr hk => ?_⟩
  rcases mem_append.1 hr with hr | hr
  · exact hn rev hr hk
  · exact absurd (hk.trans hpk) (hne rev hr)

lemma Inv.applyFetch (hi : h.Inv) {anns : List Announcement}
    (ho : h.InOrder (.applyFetch walk anns revs now))
    (hf : h.Forgotten (.applyFetch walk anns revs now)) :
    (h.step (.applyFetch walk anns revs now)).Inv := by
  obtain ⟨hnw, hc⟩ := ho
  have hr := remembers_foldl_revoke revs (h.pool, ⟨0, 0, 0, 0, 0, []⟩) hi.remembers
  refine ⟨fun k e he => ?_, fun k b hb => ?_, fun rev hrv => ?_⟩
  · -- What an announcement has put in against a revocation goes again, since it has expired.
    have hkp : (h.pool.absorbed anns revs now).Keeps fun e =>
        now < e.announcementExpiresAt → Newer (h.revoked ++ revs) e := by
      refine keeps_foldl_announce anns _ (fun k e he => ?_) ?_
      · exact (hi.newer_revoke revs k e he).imp_right fun hn _ => hn
      intro ann ha hbl e hlv hl rev hrv hk
      rw [hlv.key] at hk
      rw [hlv.issued]
      rcases hi.blocks_revoke hrv with hc' | ⟨b, hb, -⟩
      · refine UInt64.not_le.1 fun hle => UInt64.not_le.2 hl ?_
        rw [hlv.expires]
        exact hf ann ha rev hrv hk hle (UInt64.le_trans hc' hc)
      · rw [hk] at hb
        exact absurd (mem_of_lookup hb) hbl
    obtain ⟨he, hl⟩ := lookup_applyFetch he
    exact (hkp k e he).imp_right fun hn => hn (hl hnw)
  · simp only [step, applyFetch_blocklist hnw] at hb
    exact hr k b (Maps.lookup_of_retain hb)
  · rcases hi.blocks_revoke hrv with hc' | ⟨b, hb, hle⟩
    · exact .inl (UInt64.le_trans hc' hc)
    · by_cases hl : now < b.forgetAt
      · refine .inr ⟨b, ?_, hle⟩
        simp only [step, applyFetch_blocklist hnw, Maps.lookup_retain, hb]
        exact filter_some_pos (decide_eq_true hl)
      · refine .inl (UInt64.le_trans (forgetAt_mono hle) ?_)
        rw [← hr _ b hb]
        exact UInt64.not_lt.1 hl

lemma Inv.modify (hi : h.Inv) {f : BridgeEntry → BridgeEntry}
    (hf : ∀ e, (f e).bridgeEd25519Pk = e.bridgeEd25519Pk ∧
      (f e).announcementIssuedAt = e.announcementIssuedAt) :
    Inv { h with pool := h.pool.modify k f } := by
  refine ⟨hi.newer.modify fun e he => ⟨(hf e).1, fun rev hr hk => ?_⟩, ?_, ?_⟩
  · rw [(hf e).1] at hk
    rw [(hf e).2]
    exact he rev hr hk
  · simp only [PoolState.Remembers, modify_blocklist]
    exact hi.remembers
  · simp only [PoolState.Blocks, modify_blocklist]
    exact hi.blocks

lemma inv_step (h : PoolHistory) (c : PoolCall) (hi : h.Inv)
    (hc : h.InOrder c ∧ h.Forgotten c) : (h.step c).Inv := by
  cases c with
  | applyFetch walk anns revs now => exact hi.applyFetch hc.1 hc.2
  | select walk policy =>
    refine ⟨?_, ?_, ?_⟩
    · simp only [step, PoolState.Keeps, select_bridges]
      exact hi.newer
    · simp only [step, PoolState.Remembers, select_blocklist]
      exact hi.remembers
    · simp only [step, PoolState.Blocks, select_blocklist]
      exact hi.blocks
  | recordSuccess key now | recordFailure key now => exact hi.modify fun e => ⟨rfl, rfl⟩

/-- The pool neither shows nor selects an entry that is not newer than a revocation of its key. -/
theorem revoked_stays_out (maxBridges : ℕ) (calls : List PoolCall)
    (hord : Along step InOrder (init maxBridges) calls)
    (hforget : Along step Forgotten (init maxBridges) calls) :
    ∀ rev ∈ (run step (init maxBridges) calls).revoked, ∀ walk e,
      (e ∈ (run step (init maxBridges) calls).pool.snapshot walk ∨
        ∃ policy, ((run step (init maxBridges) calls).pool.select walk policy).1 = some e) →
      e.bridgeEd25519Pk = rev.targetEd25519Pk → rev.issuedAt < e.announcementIssuedAt := by
  intro rev hr walk e he hk
  have hi := inv_run inv_step _ calls (inv_init maxBridges) (along_and hord hforget)
  have hn : Newer (run step (init maxBridges) calls).revoked e := by
    rcases he with he | ⟨policy, he⟩
    · exact hi.newer.snapshot he
    · exact hi.newer.select he
  exact hn rev hr hk.symm

def listWalk : Walk := ⟨fun bridges => bridges.entries, fun _ => .refl _⟩

def sampleBridge (issuedAt expiresAt : UInt64) : Announcement :=
  let unsigned : Announcement := ⟨issuedAt, expiresAt, .replicate 32 1, .replicate 32 2, 1,
    .ipv4 (vec 4 [198, 51, 100, 7]) 443, [], .replicate 64 0⟩
  { unsigned with signature := echoScheme.sign (.replicate 32 0) unsigned.encodeSignedPrefix }

def sampleRevocation : Revocation := ⟨.replicate 32 1, .compromised, 200, .replicate 64 0⟩

def sampleCalls (expiresAt : UInt64) (again : List Announcement) : List PoolCall :=
  [.applyFetch listWalk [sampleBridge 100 expiresAt] [] 100,
    .applyFetch listWalk [] [sampleRevocation] 200, .applyFetch listWalk [] [] 605000,
    .applyFetch listWalk (sampleBridge 100 expiresAt :: again) [] 605000]

theorem revoked_stays_out_week :
    200 < (BridgeEntry.fromAnnouncement (sampleBridge 604000 700000) 605000).announcementIssuedAt :=
  revoked_stays_out 1024 (sampleCalls 605000 [sampleBridge 604000 700000]) (by decide +kernel)
    (by decide +kernel) sampleRevocation (.head _) listWalk _ (.inl (by decide +kernel)) rfl

/-- A week after its revocation an announcement that was revoked is taken again. -/
theorem revoked_comes_back : Along step InOrder (init 1024) (sampleCalls 605001 []) ∧
    Announcement.decode (sampleBridge 100 605001).encode = .ok (sampleBridge 100 605001) ∧
    (sampleBridge 100 605001).verify echoScheme (.replicate 32 0) = .ok () ∧
    sampleRevocation ∈ (run step (init 1024) (sampleCalls 605001 [])).revoked ∧
    (sampleBridge 100 605001).issuedAt ≤ sampleRevocation.issuedAt ∧
    ∃ e ∈ (run step (init 1024) (sampleCalls 605001 [])).pool.snapshot listWalk,
      e.bridgeEd25519Pk = sampleRevocation.targetEd25519Pk ∧
      e.announcementIssuedAt = (sampleBridge 100 605001).issuedAt := by
  refine ⟨by decide +kernel, by decide +kernel, by decide +kernel, .head _, by decide, ?_⟩
  decide +kernel

end PoolHistory

namespace PoolPast

/-- What comes for a key that the pool no longer has, and is older than what it had, has expired. -/
def Lapses (h : PoolPast) : PoolCall → Prop
  | .applyFetch _ anns revs now => h.pool.Lapsed h.past anns revs now
  | _ => True

instance (h : PoolPast) : DecidablePred h.Lapses := fun _ => by
  unfold Lapses
  split <;> infer_instance

lemma current_step (h : PoolPast) (c : PoolCall) (hcr : h.pool.Keeps (Current h.past))
    (hc : h.Lapses c) : (h.step c).pool.Keeps (Current (h.step c).past) := by
  have hp : (h.step c).pool.Keeps (Current h.past) := by
    cases c with
    | applyFetch walk anns revs now => exact current_applyFetch hcr hc
    | select walk policy =>
      simp only [PoolState.Keeps, step, PoolHistory.step, select_bridges]
      exact hcr
    | recordSuccess key now | recordFailure key now => exact hcr.modify fun e he => ⟨rfl, he⟩
  intro k e he
  refine ⟨(hp k e he).1, fun q hq e₀ he₀ => ?_⟩
  rcases mem_append.1 hq with hq | hq
  · exact (hp k e he).2 q hq e₀ he₀
  · rw [mem_singleton.1 hq, (hp k e he).1] at he₀
    exact UInt64.le_of_eq (congrArg _ (mem_unique he₀ he))

/-- What the pool has for a key is never older than what it had before, across evictions. -/
theorem issue_times_never_fall (maxBridges : ℕ) (calls : List PoolCall)
    (h : Along step Lapses (init maxBridges) calls) :
    ∀ q ∈ (run step (init maxBridges) calls).past, ∀ k, ∀ e ∈ q.bridges.lookup k,
      ∀ e' ∈ (run step (init maxBridges) calls).pool.bridges.lookup k,
        e.announcementIssuedAt ≤ e'.announcementIssuedAt := by
  have hi := inv_run (I := fun h => h.pool.Keeps (Current h.past)) current_step _ calls nofun h
  intro q hq k e he e' he'
  obtain ⟨hk, hc⟩ := hi k e' he'
  exact hc q hq e (hk ▸ he)

open PoolHistory

/-- A bridge expires, and then announcements of it come. -/
def sampleFetches (anns : List Announcement) : List PoolCall :=
  [.applyFetch listWalk [sampleBridge 200 300] [] 250, .applyFetch listWalk [] [] 300,
    .applyFetch listWalk anns [] 301]

theorem issue_times_never_fall_renewed :
    (sampleBridge 200 300).issuedAt ≤ (sampleBridge 201 900).issuedAt :=
  issue_times_never_fall 1024 (sampleFetches [sampleBridge 100 301, sampleBridge 201 900])
    (by decide +kernel) _ (.head _) (.replicate 32 1)
    (.fromAnnouncement (sampleBridge 200 300) 250) (by decide +kernel)
    (.fromAnnouncement (sampleBridge 201 900) 301) (by decide +kernel)

/-- What the pool had has expired, and an older one takes its place. -/
theorem older_announcement_after_expiry :
    let h := run step (init 1024) (sampleFetches [sampleBridge 100 900])
    ∃ q ∈ h.past, ∃ e ∈ q.bridges.lookup (.replicate 32 1),
      ∃ e' ∈ h.pool.bridges.lookup (.replicate 32 1),
        e'.announcementIssuedAt < e.announcementIssuedAt := by
  decide +kernel

end PoolPast

end Mirage.Discovery
