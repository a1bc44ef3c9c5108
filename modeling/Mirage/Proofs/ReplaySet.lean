import Mathlib.Data.List.Sort
import Mirage.Proofs.ReplayLog

/-!
# Tokens are single-use across restarts

An accepted token is in the set, or the set is full of entries that expire no earlier, which is what
the truncation at a restart leaves.
-/

namespace Mirage.Discovery

open Words Records Maps Runs PersistentReplayLog Record
open List hiding Vector

section Log

variable {hdr : Bytes} {K : List Record} {fsync : Bool}

def logOf (hdr : Bytes) (K : List Record) (fsync : Bool) : PersistentReplayLog :=
  ⟨⟨hdr ++ K.flatMap Record.encode, []⟩, fsync⟩

lemma wholeRecords_whole (h : IsHeader hdr) (K : List Record) :
    wholeRecords (hdr ++ K.flatMap encode) = hdr ++ K.flatMap encode := by
  rw [wholeRecords_append h, length_flatMap_encode, Nat.mul_div_cancel_left _ (by decide),
    take_of_length_le (length_flatMap_encode K).le]

lemma open_of_whole (h : IsHeader hdr) (K : List Record) (fsync : Bool) :
    PersistentReplayLog.open (some (hdr ++ K.flatMap encode)) fsync = .ok (logOf hdr K fsync) := by
  have hok := headerTest_headerOk.append h (K.flatMap encode)
  have hw := wholeRecords_whole h K
  rw [logOf]
  rcases hf : hdr ++ K.flatMap encode with _ | ⟨b, bs⟩ <;> rw [hf] at hok hw
  · cases hok
  · rw [PersistentReplayLog.open, if_pos hok, hw]

lemma append_logOf (h : IsHeader hdr) (sync : Bool) (r : Record) :
    (logOf hdr K fsync).append r { sync := sync }
      = (if fsync && !sync then .error .io else .ok (), logOf hdr (K ++ [r]) fsync) := by
  have hw : (logOf hdr K fsync).writer.writeAll bufCapacity r.encode none
      = (true, ⟨hdr ++ K.flatMap encode, r.encode⟩) := by
    have hc : r.encode.length < bufCapacity - 0 := by
      rw [r.length_encode]
      decide
    exact if_pos hc
  have hl : (⟨⟨hdr ++ K.flatMap encode ++ r.encode, []⟩, fsync⟩ : PersistentReplayLog)
      = logOf hdr (K ++ [r]) fsync := by
    rw [logOf, flatMap_append, flatMap_singleton, append_assoc]
  have hrc : (logOf hdr K fsync).writeRecord r.encode { sync := sync }
      = (if fsync && !sync then .error .io else .ok (), logOf hdr (K ++ [r]) fsync) := by
    have hf : (logOf hdr K fsync).fsyncEveryWrite = fsync := rfl
    simp only [writeRecord, hw, BufWriter.flushBuf_none, BufWriter.stream, hf, hl,
      Bool.true_eq_false, if_false]
    split_ifs <;> rfl
  have hr : (logOf hdr (K ++ [r]) fsync).realignToRecordBoundary none
      = logOf hdr (K ++ [r]) fsync := by
    simp only [realignToRecordBoundary, logOf, BufWriter.flushBuf_none, BufWriter.stream,
      append_nil, wholeRecords_whole h]
  rw [append, hrc]
  cases fsync && !sync
  · rfl
  · exact congrArg (Prod.mk _) hr

end Log

/-- The last record of the token does not expire before `exp`. -/
def Latest (K : List Record) (id : TokenId) (exp : UInt64) : Prop :=
  ∃ K₁ e K₂, K = K₁ ++ ⟨id, e⟩ :: K₂ ∧ exp ≤ e ∧ ∀ r ∈ K₂, r.tokenId ≠ id

namespace Latest

variable {K : List Record} {id : TokenId} {exp now : UInt64}

lemma self : Latest (K ++ [⟨id, exp⟩]) id exp :=
  ⟨K, exp, [], rfl, UInt64.le_refl _, by simp⟩

lemma concat {r : Record} (h : Latest K id exp) (hr : r.tokenId ≠ id) :
    Latest (K ++ [r]) id exp := by
  obtain ⟨K₁, e, K₂, rfl, he, hK₂⟩ := h
  refine ⟨K₁, e, K₂ ++ [r], by simp, he, fun r' hr' => ?_⟩
  rcases mem_append.1 hr' with hr' | hr'
  · exact hK₂ r' hr'
  · rw [mem_singleton.1 hr']
    exact hr

lemma filter (h : Latest K id exp) (hn : now ≤ exp) :
    Latest (K.filter fun r => now ≤ r.expiresAt) id exp := by
  obtain ⟨K₁, e, K₂, rfl, he, hK₂⟩ := h
  rw [filter_append, filter_cons_of_pos (by simpa using UInt64.le_trans hn he)]
  exact ⟨_, e, _, rfl, he, fun r hr => hK₂ r (mem_filter.1 hr).1⟩

end Latest

variable {K : List Record}

namespace ReplaySet

variable {rs : ReplaySet} {id : TokenId} {exp now : UInt64}

def Logs (rs : ReplaySet) (K : List Record) : Prop :=
  ∃ hdr fsync, IsHeader hdr ∧ rs.log = some (logOf hdr K fsync)

/-- The token is in the set, or the set is full of later ones. -/
def Refuses (rs : ReplaySet) (id : TokenId) (exp : UInt64) : Prop :=
  (∃ e, rs.entries.lookup id = some e ∧ exp ≤ e) ∨
    rs.maxEntries ≤ size rs.entries ∧ ∀ a e, rs.entries.lookup a = some e → exp ≤ e

/-- The token is refused now and after a restart. -/
def Blocked (rs : ReplaySet) (id : TokenId) (exp : UInt64) : Prop :=
  rs.Refuses id exp ∧ ∃ K, rs.Logs K ∧ Latest K id exp

lemma evict_of_full (hn : now ≤ exp) (h : ∀ a e, rs.entries.lookup a = some e → exp ≤ e) :
    rs.evictExpired now = rs := by
  have ha : ∀ a e, rs.entries.lookup a = some e → decide (now ≤ e) = true := fun a e he =>
    decide_eq_true (UInt64.le_trans hn (h a e he))
  rw [evictExpired, retain_eq_self ha]

lemma Refuses.evict (h : rs.Refuses id exp) (hn : now ≤ exp) :
    (rs.evictExpired now).Refuses id exp := by
  rcases h with ⟨e, hl, he⟩ | ⟨hf, ha⟩
  · refine .inl ⟨e, ?_, he⟩
    rw [evictExpired, lookup_retain, hl]
    exact Option.filter_some_pos (decide_eq_true (UInt64.le_trans hn he))
  · rw [evict_of_full hn ha]
    exact .inr ⟨hf, ha⟩

lemma insertLogged_spec (h : rs.Logs K) (sync : Bool) :
    ∃ hdr fsync, IsHeader hdr ∧ rs.insertLogged id exp { sync := sync } =
      (!(fsync && !sync), { rs with
        entries := if fsync && !sync then (rs.entries.insert id exp).erase id
          else rs.entries.insert id exp
        log := some (logOf hdr (K ++ [⟨id, exp⟩]) fsync) }) := by
  obtain ⟨hdr, fsync, hh, hl⟩ := h
  refine ⟨hdr, fsync, hh, ?_⟩
  simp only [insertLogged, hl, append_logOf hh]
  cases fsync && !sync <;> rfl

lemma check_cases (rs : ReplaySet) (id : TokenId) (exp now : UInt64) (os : Faults) :
    rs.checkAndInsert id exp now os = (false, rs) ∧ id ∈ rs.entries ∨
    rs.checkAndInsert id exp now os = (false, rs.evictExpired now) ∨
    ∃ rs', (rs' = rs ∨ rs' = rs.evictExpired now) ∧ id ∉ rs'.entries ∧
      size rs'.entries < rs'.maxEntries ∧
      rs.checkAndInsert id exp now os = rs'.insertLogged id exp os := by
  simp only [checkAndInsert]
  split_ifs with hm hf hf'
  · exact .inl ⟨rfl, hm⟩
  · exact .inr (.inl rfl)
  · exact .inr (.inr ⟨_, .inr rfl, fun h => hm (mem_of_mem_retain h), not_le.1 hf', rfl⟩)
  · exact .inr (.inr ⟨_, .inl rfl, hm, not_le.1 hf, rfl⟩)

lemma Logs.check (h : rs.Logs K) (sync : Bool) :
    ∃ K', (rs.checkAndInsert id exp now { sync := sync }).2.Logs K' := by
  rcases rs.check_cases id exp now { sync := sync } with
    ⟨hr, -⟩ | hr | ⟨rs', hr', -, -, hr⟩ <;> rw [hr]
  · exact ⟨K, h⟩
  · exact ⟨K, h⟩
  have h' : rs'.Logs K := by
    rcases hr' with rfl | rfl <;> exact h
  obtain ⟨hdr, fsync, hh, hi⟩ := insertLogged_spec h' sync
  rw [hi]
  exact ⟨_, hdr, fsync, hh, rfl⟩

variable {sync : Bool} {id' : TokenId}

lemma blocked_of_accepted (h : rs.Logs K)
    (ha : (rs.checkAndInsert id exp now { sync := sync }).1 = true) :
    (rs.checkAndInsert id exp now { sync := sync }).2.Blocked id exp := by
  rcases rs.check_cases id exp now { sync := sync } with
    ⟨hr, -⟩ | hr | ⟨rs', hr', -, -, hr⟩ <;> rw [hr] at ha ⊢
  · cases ha
  · cases ha
  have h' : rs'.Logs K := by
    rcases hr' with rfl | rfl <;> exact h
  obtain ⟨hdr, fsync, hh, hi⟩ := insertLogged_spec h' sync
  rw [hi] at ha ⊢
  have hok : (fsync && !sync) = false := by simpa only [Bool.not_eq_true'] using ha
  refine ⟨.inl ⟨exp, ?_, UInt64.le_refl _⟩, _, ⟨hdr, fsync, hh, rfl⟩, .self⟩
  simp only [hok, Bool.false_eq_true, if_false]
  exact AList.lookup_insert _

lemma Refuses.insertLogged (h : rs.Refuses id exp) (hlg : rs.Logs K)
    (hm : id' ∉ rs.entries) (hr : size rs.entries < rs.maxEntries) (exp' : UInt64)
    (sync : Bool) : id' ≠ id ∧ (rs.insertLogged id' exp' { sync := sync }).2.Refuses id exp := by
  rcases h with ⟨e, hl, he⟩ | ⟨hf, -⟩
  swap
  · exact absurd hf (not_le.2 hr)
  have hne : id' ≠ id := by
    rintro rfl
    exact hm (mem_of_lookup hl)
  obtain ⟨hdr, fsync, -, hi⟩ := insertLogged_spec hlg sync
  refine ⟨hne, .inl ⟨e, ?_, he⟩⟩
  rw [hi]
  split_ifs
  · rw [AList.lookup_erase_ne hne.symm, AList.lookup_insert_ne hne.symm, hl]
  · rw [AList.lookup_insert_ne hne.symm, hl]

lemma Blocked.check {exp' : UInt64} (h : rs.Blocked id exp)
    (hn : now ≤ exp) : (rs.checkAndInsert id' exp' now { sync := sync }).2.Blocked id exp ∧
      (id' = id → (rs.checkAndInsert id' exp' now { sync := sync }).1 = false) := by
  obtain ⟨hr, K, hlg, hl⟩ := h
  rcases rs.check_cases id' exp' now { sync := sync } with
    ⟨hre, -⟩ | hre | ⟨rs', hrx, hm, hrm, hre⟩ <;> rw [hre]
  · exact ⟨⟨hr, K, hlg, hl⟩, fun _ => rfl⟩
  · exact ⟨⟨hr.evict hn, K, hlg, hl⟩, fun _ => rfl⟩
  have hrs : rs'.Refuses id exp ∧ rs'.Logs K := by
    rcases hrx with rfl | rfl
    · exact ⟨hr, hlg⟩
    · exact ⟨hr.evict hn, hlg⟩
  obtain ⟨hne, hr'⟩ := hrs.1.insertLogged hrs.2 hm hrm exp' sync
  obtain ⟨hdr, fsync, hh, hi⟩ := insertLogged_spec hrs.2 sync
  refine ⟨⟨hr', K ++ [⟨id', exp'⟩], ?_, hl.concat hne⟩, fun he => absurd he hne⟩
  rw [hi]
  exact ⟨hdr, fsync, hh, rfl⟩

section Restart

variable {S : UnstableSort} {hdr : Bytes}

abbrev fresh (now : UInt64) (K : List Record) : List Record := K.filter fun r => now ≤ r.expiresAt

lemma boot_whole (S : UnstableSort) (max : ℕ) (h : IsHeader hdr) (K : List Record) (fsync : Bool)
    (now : UInt64) : boot S max (some (hdr ++ K.flatMap encode)) fsync now =
      .ok ⟨insertAll ∅ ((restored S max (fresh now K)).map fun r => (r.tokenId, r.expiresAt)), max,
        some (logOf mrrlHeader (fresh now K) fsync)⟩ := by
  have hl : load (some (logOf hdr K fsync).file) now = .ok (fresh now K) := load_whole h K now
  have ho : PersistentReplayLog.open (some (compact (fresh now K)))
      (logOf hdr K fsync).fsyncEveryWrite = .ok (logOf mrrlHeader (fresh now K) fsync) :=
    open_of_whole isHeader_mrrlHeader _ fsync
  simp only [boot, open_of_whole h, newWithLog, hl, ho]

/-- After a restart the last record of a token still refuses it. -/
theorem refuses_restored {max : ℕ} {E : List Record} {log : Option PersistentReplayLog}
    (h : Latest E id exp) (hd : max < E.length → (E.map tokenId).Nodup) :
    Refuses ⟨insertAll ∅ ((restored S max E).map fun r => (r.tokenId, r.expiresAt)), max, log⟩
      id exp := by
  obtain ⟨K₁, e, K₂, rfl, he, hK₂⟩ := h
  unfold restored
  split_ifs with hm
  swap
  · refine .inl ⟨e, ?_, he⟩
    rw [map_append, map_cons]
    refine lookup_insertAll _ _ ?_
    simpa using hK₂
  generalize hE : K₁ ++ ⟨id, e⟩ :: K₂ = E at hm hd
  have hmm : (⟨id, e⟩ : Record) ∈ S.sort E :=
    (S.perm E).mem_iff.2 (hE ▸ mem_append_right _ mem_cons_self)
  have hn : ((S.sort E).map tokenId).Nodup :=
    ((S.perm E).map tokenId).nodup_iff.2 (hd hm)
  have hs := S.sorted E
  rw [← take_append_drop max (S.sort E)] at hmm hn hs
  have ht : (((S.sort E).take max).map tokenId).Nodup := by
    rw [map_append] at hn
    exact hn.of_append_left
  rcases mem_append.1 hmm with hin | ho
  · obtain ⟨l₁, l₂, hl⟩ := append_of_mem hin
    refine .inl ⟨e, ?_, he⟩
    rw [hl, map_append, map_cons, nodup_append, nodup_cons] at ht
    rw [hl, map_append, map_cons]
    refine lookup_insertAll _ _ ?_
    simpa using ht.2.1.1
  -- the token was dropped: the set is full, and nothing in it expires before the token
  have hln : ((S.sort E).take max).length = max := by
    rw [length_take, (S.perm E).length_eq]
    exact Nat.min_eq_left hm.le
  refine .inr ⟨?_, fun a e' hl => ?_⟩
  · refine (Nat.le_of_eq ?_).trans (Nat.le_of_eq (size_insertAll _ _ ?_ ?_).symm)
    · rw [length_map, hln]
      exact (Nat.zero_add _).symm
    · rw [map_map]
      exact ht
    · exact fun _ _ => AList.notMem_empty _
  · rcases mem_of_lookup_insertAll _ _ hl with hl | hl
    · obtain ⟨r, hr, hre⟩ := mem_map.1 hl
      obtain ⟨-, rfl⟩ := Prod.mk.inj hre
      exact UInt64.le_trans he ((pairwise_append.1 hs).2.2 r hr _ ho)
    · cases hl

/-- If a restart has to drop records, the log holds no token twice. -/
def Restorable (rs : ReplaySet) : ReplayOp → Prop
  | .restart now => ∀ recs ∈ rs.log.bind fun log => (load (some log.file) now).toOption,
      rs.maxEntries < recs.length → (recs.map Record.tokenId).Nodup
  | _ => True

lemma Logs.restart (h : rs.Logs K) (S : UnstableSort) (now : UInt64) :
    (rs.restart S now).Logs (fresh now K) := by
  obtain ⟨hdr, fsync, hh, hl⟩ := h
  have hb := boot_whole S rs.maxEntries hh K fsync now
  simp only [ReplaySet.restart, hl]
  rw [show (logOf hdr K fsync).file = hdr ++ K.flatMap encode from rfl,
    show (logOf hdr K fsync).fsyncEveryWrite = fsync from rfl, hb]
  exact ⟨mrrlHeader, fsync, isHeader_mrrlHeader, rfl⟩

lemma Blocked.restart (h : rs.Blocked id exp) (S : UnstableSort) (hn : now ≤ exp)
    (hr : rs.Restorable (.restart now)) : (rs.restart S now).Blocked id exp := by
  obtain ⟨-, K, hl, hls⟩ := h
  refine ⟨?_, _, hl.restart S now, hls.filter hn⟩
  obtain ⟨hdr, fsync, hh, hlg⟩ := hl
  have hld : load (some (logOf hdr K fsync).file) now = .ok (fresh now K) := load_whole hh K now
  have hd := hr (fresh now K) (by rw [hlg, Option.bind_some, hld]; rfl)
  have hb := boot_whole S rs.maxEntries hh K fsync now
  simp only [ReplaySet.restart, hlg]
  rw [show (logOf hdr K fsync).file = hdr ++ K.flatMap encode from rfl,
    show (logOf hdr K fsync).fsyncEveryWrite = fsync from rfl, hb]
  exact refuses_restored (hls.filter hn) hd

end Restart

section Runs

variable {S : UnstableSort}

lemma logs_step (S : UnstableSort) (rs : ReplaySet) (op : ReplayOp) (h : ∃ K, rs.Logs K) :
    ∃ K, (rs.step S op).Logs K := by
  obtain ⟨K, h⟩ := h
  cases op with
  | check id exp now sync => exact h.check sync
  | evict now => exact ⟨K, h⟩
  | restart now => exact ⟨_, h.restart S now⟩

lemma blocked_step (S : UnstableSort) (rs : ReplaySet) (op : ReplayOp) (h : rs.Blocked id exp)
    (hop : op.nowUnix ≤ exp ∧ rs.Restorable op) : (rs.step S op).Blocked id exp := by
  cases op with
  | check id' exp' now sync => exact (h.check hop.1).1
  | evict now => exact ⟨h.1.evict hop.1, h.2⟩
  | restart now => exact h.restart S hop.1 hop.2

lemma logs_of_boot {max : ℕ} {file : Option Bytes} {fsync : Bool}
    (h : boot S max file fsync now = .ok rs) : ∃ K, rs.Logs K := by
  rcases ho : PersistentReplayLog.open file fsync with err | log <;>
    simp only [boot, ho, reduceCtorEq] at h
  obtain ⟨hdr, K, hh, rfl, -⟩ := open_whole ho
  have hb := boot_whole S max hh K fsync now
  simp only [boot, open_of_whole hh] at hb
  rw [← logOf, hb] at h
  obtain rfl := Except.ok.inj h
  exact ⟨_, mrrlHeader, fsync, isHeader_mrrlHeader, rfl⟩

/-- A token is accepted once before it expires, if truncation finds no token twice in the log. -/
theorem single_use (S : UnstableSort) (maxEntries : ℕ) (file : Option Bytes) (fsync : Bool)
    (t₀ : UInt64) (rs : ReplaySet) (hboot : boot S maxEntries file fsync t₀ = .ok rs)
    (before between : List ReplayOp) (id : TokenId) (exp exp' t₁ t₂ : UInt64) (sync sync' : Bool)
    (hclock : ReplayOp.Clocked
      (before ++ .check id exp t₁ sync :: between ++ [.check id exp' t₂ sync']))
    (hr : Along (step S) Restorable rs (before ++ .check id exp t₁ sync :: between))
    (hacc : ((run (step S) rs before).checkAndInsert id exp t₁ { sync := sync }).1 = true)
    (hle : t₂ ≤ exp) :
    ((run (step S) rs (before ++ .check id exp t₁ sync :: between)).checkAndInsert id exp' t₂
      { sync := sync' }).1 = false := by
  obtain ⟨K, hl⟩ : ∃ K, (run (step S) rs before).Logs K :=
    Runs.inv_run (fun rs op h _ => logs_step S rs op h) rs before (logs_of_boot hboot)
      (along_true rs before)
  have hb := blocked_of_accepted hl hacc
  -- the clock stands before the token's expiry all the way to the second check
  have hbf : ∀ op ∈ between, op.nowUnix ≤ exp := fun op hop => by
    rw [ReplayOp.Clocked, List.map_append, List.pairwise_append] at hclock
    refine UInt64.le_trans (hclock.2.2 op.nowUnix ?_ t₂ (by simp [ReplayOp.nowUnix])) hle
    exact List.mem_map_of_mem (List.mem_append_right _ (List.mem_cons_of_mem _ hop))
  have hbt := along_and_of_forall hbf (along_append.1 hr).2.2
  rw [run_append, run_cons]
  exact ((Runs.inv_run (blocked_step S) _ between hb hbt).check hle).2 rfl

def sortByExpiry : UnstableSort :=
  let r := fun a b : Record => b.expiresAt ≤ a.expiresAt
  have : Std.Total r := ⟨fun a b => UInt64.le_total b.expiresAt a.expiresAt⟩
  have : IsTrans Record r := ⟨fun _ _ _ h h' => UInt64.le_trans h' h⟩
  { sort := List.insertionSort r
    perm := List.perm_insertionSort r
    sorted := List.pairwise_insertionSort r }

instance (rs : ReplaySet) : DecidablePred rs.Restorable := fun _ => by
  unfold Restorable
  split <;> infer_instance

instance (ops : List ReplayOp) : Decidable (ReplayOp.Clocked ops) :=
  inferInstanceAs (Decidable (List.Pairwise _ _))

def firstBoot (maxEntries : ℕ) : ReplaySet := ⟨∅, maxEntries, some ⟨⟨mrrlHeader, []⟩, true⟩⟩

/-- A record left by a failed sync makes the restart drop an accepted token, which is refused all
the same. -/
theorem single_use_truncated :
    let before : List ReplayOp := [.check (Vector.replicate 32 2) 100 1 false]
    let between : List ReplayOp := [.restart 2]
    let id : TokenId := Vector.replicate 32 1
    let after := run (step sortByExpiry) (firstBoot 1)
    ((after before).checkAndInsert id 50 1 { sync := true }).1 = true ∧
    ((after (before ++ .check id 50 1 true :: between)).checkAndInsert id 60 3
      { sync := true }).1 = false :=
  ⟨by decide +kernel, single_use sortByExpiry 1 none true 0 (firstBoot 1) (by rfl) _ _ _ 50 60 1 3
    true true (by decide +kernel) (by decide +kernel) (by decide +kernel) (by decide +kernel)⟩

/-- A token is in the log twice; the restart drops another, which is then accepted again. -/
theorem replayed_after_truncation :
    let id : TokenId := Vector.replicate 32 1
    let other : TokenId := Vector.replicate 32 2
    let before : List ReplayOp := [.check other 100 1 false, .check other 100 1 true]
    let after := run (step sortByExpiry) (firstBoot 2)
    boot sortByExpiry 2 none true 0 = .ok (firstBoot 2) ∧
    ((after before).checkAndInsert id 50 1 { sync := true }).1 = true ∧
    ((after (before ++ [.check id 50 1 true, .restart 2])).checkAndInsert id 50 3
      { sync := true }).1 = true := by
  refine ⟨rfl, ?_⟩
  decide +kernel

end Runs

end ReplaySet

end Mirage.Discovery
