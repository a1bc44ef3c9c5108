import Mirage.Lib.Runs
import Mirage.Lib.Windows
import Mirage.Migration.State

/-!
# Paths are validated

A connection moves only to a path that answered the last challenge it was sent, in time (`Honest`).
The rate limit does not count challenges that are still open.
-/

namespace Mirage.Migration

open Runs Windows Outstanding Nat
open List hiding Vector

inductive PathEvent
  | issued (path : SocketAddr) (challenge : PathChallenge) (now : ℕ)
  | migrated (path : SocketAddr) (response : PathResponse) (now : ℕ)

def PathEvent.path : PathEvent → SocketAddr
  | .issued path _ _ => path
  | .migrated path _ _ => path

def migrations (log : List PathEvent) : List ℕ :=
  log.filterMap fun
    | .migrated _ _ now => some now
    | .issued _ _ _ => none

/-- Before a move, the last the log has of the path is a challenge in time with the response's
bytes. -/
def Honest (timeout : ℕ) : List PathEvent → Prop
  | [] => True
  | .issued _ _ _ :: log => Honest timeout log
  | .migrated path response now :: log =>
    (∃ issued, log.find? (·.path = path) = some (.issued path response issued) ∧
      now ≤ issued + timeout) ∧ Honest timeout log

variable {c : Outstanding} {l : List Outstanding} {s : MigrationState} {clock : ℕ} {times : List ℕ}
  {policy : MigrationPolicy}

namespace MigrationState

variable {s s' : MigrationState} {call : MigrationCall} {source : SocketAddr} {now : ℕ}

def event (s : MigrationState) : MigrationCall → Option PathEvent
  | .inbound random source now =>
    match (s.observeInbound random source now).1 with
    | .ok (.newChallenge path challenge) => some (.issued path challenge now)
    | _ => none
  | .response source response now =>
    match (s.observeResponse source response now).1 with
    | .ok (.migrated newActive _) => some (.migrated newActive response now)
    | _ => none
  | .finalizeRetirement => none

def paths (s : MigrationState) : List SocketAddr := s.challenging.map Outstanding.path

def live (s : MigrationState) (now : ℕ) : List Outstanding :=
  s.challenging.filter fun c => cutoff now s.policy.validationTimeout ≤ c.issued

def kept (s : MigrationState) : List Outstanding :=
  if maxSimultaneousChallenges ≤ s.challenging.length then s.challenging.tail else s.challenging

lemma kept_sublist (s : MigrationState) : s.kept.Sublist s.challenging := by
  unfold kept
  split_ifs
  · exact tail_sublist _
  · exact .refl _

lemma kept_length_lt (h : s.challenging.length ≤ maxSimultaneousChallenges) :
    s.kept.length < maxSimultaneousChallenges := by
  unfold kept
  split_ifs with hf
  · have hp : 0 < maxSimultaneousChallenges := by decide
    rw [length_tail]
    omega
  · exact Nat.lt_of_not_le hf

/-- Only migrations that are too old were dropped. -/
def Trimmed (s : MigrationState) (call : MigrationCall) (recent : List ℕ) : Prop :=
  recent = s.recentMigrations ∨
    ∃ now, call.now = some now ∧ recent = (s.expireOldMigrations now).recentMigrations

/-- What a call does to the paths, and what of it is logged. -/
inductive Turn (s : MigrationState) : MigrationCall → Option PathEvent → MigrationState → Prop
  | quiet {call : MigrationCall} {challenging : List Outstanding} {recent : List ℕ}
    {retiring : Option (SocketAddr × ℕ)} (hsub : challenging.Sublist s.challenging)
    (hrecent : s.Trimmed call recent) (hretiring : retiring = s.retiring ∨ retiring = none) :
    Turn s call none ⟨s.policy, s.active, challenging, recent, retiring⟩
  | challenged {source : SocketAddr} {challenge : PathChallenge} {now : ℕ}
    {retiring : Option (SocketAddr × ℕ)}
    (heq : s.expireRetiring now = { s with retiring := retiring })
    (hretiring : retiring = s.retiring ∨ retiring = none)
    (hnew : (s.expireRetiring now).pathState source = none)
    (hrate : (s.expireOldMigrations now).recentMigrations.length <
      s.policy.maxMigrationsPerMin.toNat) :
    Turn s (.inbound (some challenge) source now) (some (.issued source challenge now))
      ⟨s.policy, s.active, s.kept ++ [⟨source, challenge, now⟩],
        (s.expireOldMigrations now).recentMigrations, retiring⟩
  | moved {source : SocketAddr} {response : PathResponse} {now : ℕ} {c : Outstanding}
    (hfind : (s.live now).find? (answers source response) = some c) :
    Turn s (.response source response now) (some (.migrated c.path response now))
      ⟨s.policy, c.path, (s.live now).eraseP (answers source response),
        (s.expireOldMigrations now).recentMigrations ++ [now], some (s.active, now)⟩

lemma expireRetiring_eq (s : MigrationState) (now : ℕ) :
    ∃ retiring, s.expireRetiring now = { s with retiring := retiring } ∧
      (retiring = s.retiring ∨ retiring = none) := by
  unfold expireRetiring
  split
  · split_ifs
    · exact ⟨none, rfl, .inr rfl⟩
    · exact ⟨s.retiring, rfl, .inl rfl⟩
  · exact ⟨s.retiring, rfl, .inl rfl⟩

lemma observeInbound_eq {random : Option PathChallenge} {retiring : Option (SocketAddr × ℕ)}
    (heq : s.expireRetiring now = { s with retiring := retiring }) :
    s.observeInbound random source now =
      if source = s.active then (.ok .active, { s with retiring := retiring })
      else if s.challenging.any fun c => c.path = source then
        (.ok .stillChallenging, { s with retiring := retiring })
      else if retiring.any fun r => r.1 = source then
        (.ok .active, { s with retiring := retiring })
      else if s.policy.maxMigrationsPerMin.toNat ≤
          (s.expireOldMigrations now).recentMigrations.length then
        (.error (.rateLimit s.policy.maxMigrationsPerMin),
          ⟨s.policy, s.active, s.challenging, (s.expireOldMigrations now).recentMigrations,
            retiring⟩)
      else
        match random with
        | none =>
          (.error .csprng,
            ⟨s.policy, s.active, s.kept, (s.expireOldMigrations now).recentMigrations, retiring⟩)
        | some challenge =>
          (.ok (.newChallenge source challenge),
            ⟨s.policy, s.active, s.kept ++ [⟨source, challenge, now⟩],
              (s.expireOldMigrations now).recentMigrations, retiring⟩) := by
  unfold observeInbound
  rw [heq]
  rfl

lemma turn_inbound (random : Option PathChallenge) :
    s.Turn (.inbound random source now) (s.event (.inbound random source now))
      (s.observeInbound random source now).2 := by
  obtain ⟨retiring, heq, hrt⟩ := s.expireRetiring_eq now
  have hq : s.Turn (.inbound random source now) none { s with retiring := retiring } :=
    .quiet (.refl _) (.inl rfl) hrt
  have hn : source ≠ s.active → ¬ (s.challenging.any fun c => c.path = source) = true →
      ¬ (retiring.any fun r => r.1 = source) = true →
      (s.expireRetiring now).pathState source = none := by
    intro ha hch hr
    rw [heq]
    unfold pathState
    rw [if_neg ha, if_neg hch, if_neg hr]
  unfold event
  simp only [observeInbound_eq heq]
  split_ifs with ha hch hr hra
  · exact hq
  · exact hq
  · exact hq
  · exact .quiet (.refl _) (.inr ⟨now, rfl, rfl⟩) hrt
  cases random with
  | none => exact .quiet s.kept_sublist (.inr ⟨now, rfl, rfl⟩) hrt
  | some challenge =>
    exact .challenged heq hrt (hn ha hch hr) (Nat.lt_of_not_le hra)

variable (response : PathResponse)

lemma observeResponse_eq : s.observeResponse source response now =
      match (s.live now).find? (answers source response) with
      | none =>
        (.error .unmatchedResponse,
          ⟨s.policy, s.active, s.live now, (s.expireOldMigrations now).recentMigrations,
            s.retiring⟩)
      | some c =>
        (.ok (.migrated c.path s.active),
          ⟨s.policy, c.path, (s.live now).eraseP (answers source response),
            (s.expireOldMigrations now).recentMigrations ++ [now], some (s.active, now)⟩) :=
  rfl

lemma turn_response :
    s.Turn (.response source response now) (s.event (.response source response now))
      (s.observeResponse source response now).2 := by
  unfold event
  simp only [observeResponse_eq]
  cases hf : (s.live now).find? (answers source response) with
  | none => exact .quiet filter_sublist (.inr ⟨now, rfl, rfl⟩) (.inl rfl)
  | some c => exact .moved hf

/-- Every call is one of the turns. -/
lemma step_turn (s : MigrationState) (call : MigrationCall) :
    s.Turn call (s.event call) (s.step call) := by
  cases call with
  | inbound random source now => exact turn_inbound random
  | response source response now => exact turn_response response
  | finalizeRetirement => exact .quiet (.refl _) (.inl rfl) (.inr rfl)

lemma pathState_eq_none (h : s.pathState source = none) :
    source ≠ s.active ∧ source ∉ s.paths ∧ ∀ r, s.retiring = some r → r.1 ≠ source := by
  unfold pathState at h
  split_ifs at h with ha hch hrt
  refine ⟨ha, fun hm => hch ?_, fun r hr hs => hrt ?_⟩
  · obtain ⟨c, hc, hp⟩ := mem_map.1 hm
    exact any_eq_true.2 ⟨c, hc, by simpa using hp⟩
  · rw [hr]
    simpa using hs

lemma le_add_of_cutoff_le {d issued : ℕ} (h : cutoff now d ≤ issued) : now ≤ issued + d := by
  unfold cutoff at h
  split_ifs at h <;> omega

lemma of_answers {response : PathResponse} (h : answers source response c = true) :
    c.path = source ∧ response = c.challenge := by
  unfold answers PathResponse.matches at h
  simpa using h

lemma of_stillChallenging {random : Option PathChallenge}
    (h : (s.observeInbound random source now).1 = .ok .stillChallenging) :
    (∃ c ∈ s.challenging, c.path = source) ∧
      (s.observeInbound random source now).2 = s.expireRetiring now := by
  obtain ⟨retiring, heq, -⟩ := s.expireRetiring_eq now
  rw [observeInbound_eq heq] at h ⊢
  rw [heq]
  split_ifs at h ⊢ with ha hch hr hrt
  · cases h
  · obtain ⟨c, hc, hp⟩ := any_eq_true.1 hch
    exact ⟨⟨c, hc, by simpa using hp⟩, rfl⟩
  · cases h
  · cases random <;> cases h

lemma notMem_eraseP {response : PathResponse} (hn : (l.map path).Nodup)
    (hf : l.find? (answers source response) = some c) :
    source ∉ (l.eraseP (answers source response)).map path := by
  have hc := find?_some hf
  obtain ⟨a, l₁, l₂, -, ha, hl, hr⟩ := exists_of_eraseP (mem_of_find?_eq_some hf) hc
  rw [hl, map_append, map_cons, nodup_middle, (of_answers ha).1] at hn
  rw [hr, map_append]
  exact (nodup_cons.1 hn).1

/-- Any challenge that a packet is a sign of can still be answered. -/
def Current (s : MigrationState) : MigrationCall → Prop
  | .inbound _ source now => ∀ c ∈ s.challenging, c.path = source →
      cutoff now s.policy.validationTimeout ≤ c.issued
  | _ => True

instance (s : MigrationState) : DecidablePred s.Current := fun _ => by
  unfold Current
  split <;> infer_instance

/-- Who is told to wait for a response has a challenge, and its response would be good. -/
def Unblocked (s : MigrationState) : MigrationCall → Prop
  | .inbound random source now =>
    (s.observeInbound random source now).1 = .ok .stillChallenging →
      ∃ c ∈ s.challenging, c.path = source ∧
        ((s.observeInbound random source now).2.observeResponse source c.challenge.toResponse
          now).1 = .ok (.migrated source s.active)
  | _ => True

lemma Current.unblocked (h : s.Current call) : s.Unblocked call := by
  cases call with
  | response | finalizeRetirement => trivial
  | inbound random source now =>
    intro hw
    obtain ⟨⟨c, hc, hp⟩, hs⟩ := of_stillChallenging hw
    obtain ⟨retiring, heq, -⟩ := s.expireRetiring_eq now
    have hl : c ∈ s.live now := mem_filter.2 ⟨hc, decide_eq_true (h c hc hp)⟩
    have ha : answers source c.challenge.toResponse c = true := by
      simp [answers, PathResponse.matches, PathChallenge.toResponse, hp]
    refine ⟨c, hc, hp, ?_⟩
    rw [hs, heq, observeResponse_eq]
    change (match (s.live now).find? _ with | none => _ | some c => _ :
      Except MigrationError MigrationDecision × MigrationState).1 = _
    cases hf : (s.live now).find? (answers source c.challenge.toResponse) with
    | none => exact absurd ha (find?_eq_none.1 hf c hl)
    | some c' =>
      obtain ⟨rfl, -⟩ := of_answers (find?_some hf)
      rfl

/-- The connection stays, or moves to the path of a response. -/
def Moves (s : MigrationState) (call : MigrationCall) : Prop :=
  (s.step call).active = s.active ∨
    ∃ response now, call = .response (s.step call).active response now ∧
      s.event call = some (.migrated (s.step call).active response now)

lemma moves (s : MigrationState) (call : MigrationCall) : s.Moves call := by
  have h := s.step_turn call
  unfold Moves
  generalize s.step call = s' at h ⊢
  generalize s.event call = ev at h ⊢
  cases h with
  | quiet | challenged => exact .inl rfl
  | moved hf =>
    obtain ⟨rfl, -⟩ := of_answers (find?_some hf)
    exact .inr ⟨_, _, rfl, rfl⟩

end MigrationState

structure Watch where
  state : MigrationState
  log : List PathEvent
  clock : ℕ

namespace Watch

def start (policy : MigrationPolicy) (initialPath : SocketAddr) : Watch :=
  ⟨.new policy initialPath, [], 0⟩

def step (w : Watch) (call : MigrationCall) : Watch :=
  ⟨w.state.step call, (w.state.event call).toList ++ w.log, call.now.getD w.clock⟩

variable {w : Watch} {call : MigrationCall}

/-- The paths are told apart, and an open challenge is the last the log has of its path. -/
structure Valid (w : Watch) : Prop where
  nodup : w.state.paths.Nodup
  active : w.state.active ∉ w.state.paths
  length : w.state.challenging.length ≤ maxSimultaneousChallenges
  retiring : ∀ r, w.state.retiring = some r → r.1 ≠ w.state.active ∧ r.1 ∉ w.state.paths
  issued : ∀ c ∈ w.state.challenging,
    w.log.find? (·.path = c.path) = some (.issued c.path c.challenge c.issued)
  honest : Honest w.state.policy.validationTimeout w.log

variable (initialPath : SocketAddr)

lemma valid_start : (start policy initialPath).Valid where
  nodup := nodup_nil
  active := not_mem_nil
  length := zero_le _
  retiring _ h := nomatch h
  issued _ h := nomatch h
  honest := trivial

open MigrationState in
lemma valid_of_turn {s' : MigrationState} {log : List PathEvent} {clock' : ℕ}
    {ev : Option PathEvent} (h : Valid ⟨s, log, clock⟩) (ht : s.Turn call ev s') :
    Valid ⟨s', ev.toList ++ log, clock'⟩ := by
  obtain ⟨hn, ha, hl, hrt, hi, hh⟩ := h
  cases ht with
  | @quiet _ challenging recent retiring hs hrc hre =>
    have hp : challenging.map path ⊆ s.paths := (hs.map _).subset
    refine ⟨hn.sublist (hs.map _), fun hm => ha (hp hm),
      hs.length_le.trans hl, fun r hr => ?_, fun c hc => hi c (hs.subset hc), hh⟩
    rcases hre with rfl | rfl
    · exact (hrt r hr).imp_right fun hnt hm => hnt (hp hm)
    · cases hr
  | @challenged source challenge now retiring heq hre hnw hra =>
    have hs := s.kept_sublist
    rw [heq] at hnw
    obtain ⟨hne, hu, ho⟩ := pathState_eq_none hnw
    have hp : s.kept.map path ⊆ s.paths := (hs.map _).subset
    have hsr : source ∉ s.kept.map path := fun hm => hu (hp hm)
    have hmp : (s.kept ++ [Outstanding.mk source challenge now]).map Outstanding.path =
        s.kept.map path ++ [source] := map_append
    refine ⟨?_, ?_, ?_, fun r hr => ?_, fun c hc => ?_, hh⟩
    · change (map _ _).Nodup
      rw [hmp, nodup_append_comm]
      exact nodup_cons.2 ⟨hsr, hn.sublist (hs.map _)⟩
    · change s.active ∉ map _ _
      rw [hmp, mem_append, mem_singleton]
      rintro (hm | hm)
      · exact ha (hp hm)
      · exact hne hm.symm
    · rw [length_append, length_singleton]
      exact kept_length_lt hl
    · have hol : s.retiring = some r := by
        rcases hre with rfl | rfl
        · exact hr
        · cases hr
      refine ⟨(hrt r hol).1, ?_⟩
      change r.1 ∉ map _ _
      rw [hmp, mem_append, mem_singleton]
      rintro (hm | hm)
      · exact (hrt r hol).2 (hp hm)
      · exact ho r hr hm
    · rcases mem_append.1 hc with hk | hls
      · have hpt : source ≠ c.path := by
          rintro rfl
          exact hsr (mem_map_of_mem hk)
        exact (find?_cons_of_neg (by simp [PathEvent.path, hpt])).trans (hi c (hs.subset hk))
      · obtain rfl := mem_singleton.1 hls
        exact find?_cons_of_pos (by simp [PathEvent.path])
  | @moved source response now c hf =>
    have hlv : c ∈ s.live now := mem_of_find?_eq_some hf
    obtain ⟨hc, hct⟩ := mem_filter.1 hlv
    obtain ⟨rfl, rfl⟩ := of_answers (find?_some hf)
    have hs : ((s.live now).eraseP (answers c.path c.challenge)).Sublist s.challenging :=
      eraseP_sublist.trans filter_sublist
    have hg := notMem_eraseP (hn.sublist (filter_sublist.map _)) hf
    refine ⟨hn.sublist (hs.map _), hg, hs.length_le.trans hl, fun r hr => ?_,
      fun c' hc' => ?_, ⟨c.issued, hi c hc, ?_⟩, hh⟩
    · cases hr
      refine ⟨fun heq => ha ?_, fun hm => ha ((hs.map _).subset hm)⟩
      change s.active = c.path at heq
      rw [heq]
      exact mem_map_of_mem hc
    · have hpt : c.path ≠ c'.path := by
        intro heq
        have hm : c'.path ∈ map path _ := mem_map_of_mem hc'
        exact hg (heq ▸ hm)
      exact (find?_cons_of_neg (by simp [PathEvent.path, hpt])).trans (hi c' (hs.subset hc'))
    · exact le_add_of_cutoff_le (of_decide_eq_true hct)

lemma Valid.step (h : w.Valid) : (w.step call).Valid :=
  valid_of_turn h (w.state.step_turn call)

/-- The connection moves only to paths that answered their last challenge in time. -/
theorem paths_validated (policy : MigrationPolicy) (initialPath : SocketAddr)
    (calls : List MigrationCall)
    (h : Along step (fun w call => w.state.Current call) (start policy initialPath) calls) :
    Along step (fun w call => (w.step call).Valid ∧ w.state.Moves call ∧ w.state.Unblocked call)
      (start policy initialPath) calls :=
  along_of_inv (fun _ _ hw _ => hw.step)
    (fun w call hw hc => ⟨hw.step, w.state.moves call, hc.unblocked⟩) _ calls
    (valid_start initialPath) h

def host (n : UInt8) : SocketAddr := .v4 #v[10, 0, 0, n] 443

def bytes (n : UInt8) : Vector UInt8 8 := Vector.replicate 8 n

def roam : List MigrationCall :=
  [.inbound (some (bytes 2)) (host 2) minute, .inbound (some (bytes 3)) (host 3) minute,
    .inbound none (host 2) (minute + millis 1000),
    .response (host 3) (bytes 3) (minute + millis 1000)]

theorem paths_validated_roam :
    Along step (fun w call => w.state.Current call) (start .default (host 1)) roam ∧
      (run step (start .default (host 1)) roam).state.active = host 3 ∧ Along step (fun w call =>
          (w.step call).Valid ∧ w.state.Moves call ∧ w.state.Unblocked call)
        (start .default (host 1)) roam :=
  ⟨by decide +kernel, by decide +kernel, paths_validated .default (host 1) roam (by decide +kernel)⟩

/-- After a challenge was lost, a packet of its path waits for a response that will not do. -/
theorem challenge_blocks_path :
    let w := start .default (host 1)
    let s := (w.step (.inbound (some (bytes 2)) (host 2) minute)).state
    let late := minute + millis 10000
    (s.observeInbound (some (bytes 7)) (host 2) late).1 = .ok .stillChallenging ∧
      s.challenging = [⟨host 2, bytes 2, minute⟩] ∧
      ((s.observeInbound (some (bytes 7)) (host 2) late).2.observeResponse (host 2)
        (bytes 2) late).1 = .error .unmatchedResponse := by
  decide +kernel

def unanswered (policy : MigrationPolicy) (now : ℕ) (l : List Outstanding) : ℕ :=
  trailing policy.validationTimeout now (l.map Outstanding.issued)

/-- The call comes in order, and a path is challenged if the limit has room for open challenges. -/
def Paced (w : Watch) : MigrationCall → Prop
  | .inbound _ source now =>
    w.clock ≤ now ∧ minute ≤ now ∧
      ((w.state.expireRetiring now).pathState source = none →
        w.state.policy.maxMigrationsPerMin.toNat ≤
            (w.state.expireOldMigrations now).recentMigrations.length ∨
          (w.state.expireOldMigrations now).recentMigrations.length +
              unanswered w.state.policy now w.state.kept <
            w.state.policy.maxMigrationsPerMin.toNat)
  | .response _ _ now => w.clock ≤ now ∧ minute ≤ now
  | .finalizeRetirement => True

instance (w : Watch) : DecidablePred w.Paced := fun _ => by
  unfold Paced
  split <;> infer_instance

lemma Paced.now {now : ℕ} (h : w.Paced call) (hn : call.now = some now) :
    w.clock ≤ now ∧ minute ≤ now := by
  cases call with
  | inbound =>
    cases hn
    exact ⟨h.1, h.2.1⟩
  | response =>
    cases hn
    exact h
  | finalizeRetirement => cases hn

lemma Paced.clock_le (h : w.Paced call) : w.clock ≤ call.now.getD w.clock := by
  cases hn : call.now with
  | none => exact le_refl _
  | some now => exact (h.now hn).1

/-- The queue has the migrations of the last minute. -/
structure Counted (recent times : List ℕ) (clock : ℕ) : Prop where
  sorted : recent.Pairwise (· ≤ ·)
  past : ∀ t ∈ recent, t ≤ clock
  count : ∀ now, clock ≤ now → trailing minute now recent = trailing minute now times

/-- The migrations of a minute and the open challenges are within the limit. -/
structure Capped (policy : MigrationPolicy) (w : Watch) : Prop where
  same : w.state.policy = policy
  counted : Counted w.state.recentMigrations (migrations w.log) w.clock
  cap : trailing minute w.clock (migrations w.log) +
    unanswered policy w.clock w.state.challenging ≤ policy.maxMigrationsPerMin.toNat
  windows : ∀ a, inside minute a (migrations w.log) ≤ policy.maxMigrationsPerMin.toNat

lemma Counted.later {recent : List ℕ} {clock' : ℕ} (h : Counted recent times clock)
    (hle : clock ≤ clock') : Counted recent times clock' :=
  ⟨h.sorted, fun t ht => (h.past t ht).trans hle, fun now hn => h.count now (hle.trans hn)⟩

lemma Counted.expire {now : ℕ} (h : Counted s.recentMigrations times clock) (hc : clock ≤ now)
    (hm : minute ≤ now) : Counted (s.expireOldMigrations now).recentMigrations times now ∧
      (s.expireOldMigrations now).recentMigrations.length = trailing minute now times := by
  have he : (s.expireOldMigrations now).recentMigrations =
      s.recentMigrations.dropWhile fun t => t < now - minute := by
    unfold MigrationState.expireOldMigrations cutoff
    rw [if_pos hm]
  have hs : (s.expireOldMigrations now).recentMigrations.Sublist s.recentMigrations :=
    dropWhile_sublist _
  refine ⟨⟨h.sorted.sublist hs, fun t ht => (h.past t (hs.subset ht)).trans hc,
    fun now' hn' => ?_⟩, ?_⟩
  · rw [he, trailing_dropWhile hm hn' h.sorted]
    exact h.count now' (hc.trans hn')
  · rw [he, dropWhile_length hm h.sorted]
    exact h.count now hc

lemma Counted.push {recent : List ℕ} {now : ℕ} (h : Counted recent times now) :
    Counted (recent ++ [now]) (now :: times) now := by
  refine ⟨?_, fun t ht => ?_, fun now' hn' => ?_⟩
  · rw [pairwise_append]
    refine ⟨h.sorted, pairwise_singleton _ _, fun t ht t' ht' => ?_⟩
    rw [mem_singleton.1 ht']
    exact h.past t ht
  · rcases mem_append.1 ht with ht | ht
    · exact h.past t ht
    · exact (mem_singleton.1 ht).le
  · have hc := h.count now' hn'
    unfold trailing at hc ⊢
    simp only [countP_append, countP_cons, countP_nil, hc, Nat.zero_add]

lemma unanswered_le {now now' : ℕ} {l' : List Outstanding} (hn : now ≤ now')
    (hs : l'.Sublist l) : unanswered policy now' l' ≤ unanswered policy now l :=
  (trailing_le hn).trans (hs.map _).countP_le

lemma unanswered_append {now : ℕ} :
    unanswered policy now (l ++ [c]) ≤ unanswered policy now l + 1 := by
  unfold unanswered trailing
  rw [map_append, countP_append]
  exact Nat.add_le_add_left countP_le_length _

lemma unanswered_eraseP {now : ℕ} {p : Outstanding → Bool}
    (hf : (s.live now).find? p = some c) : unanswered s.policy now ((s.live now).eraseP p) + 1 ≤
      unanswered s.policy now s.challenging := by
  have hm := mem_of_find?_eq_some hf
  have he := length_eraseP_of_mem hm (find?_some hf)
  have hp := length_pos_of_mem hm
  have hl : unanswered s.policy now (s.live now) = (s.live now).length := by
    unfold unanswered trailing
    rw [countP_eq_length.2, length_map]
    intro t ht
    obtain ⟨c', hc', rfl⟩ := mem_map.1 ht
    exact decide_eq_true
      (MigrationState.le_add_of_cutoff_le (of_decide_eq_true (mem_filter.1 hc').2))
  have hle : unanswered s.policy now ((s.live now).eraseP p) ≤ ((s.live now).eraseP p).length :=
    countP_le_length.trans_eq (length_map _)
  calc unanswered s.policy now ((s.live now).eraseP p) + 1
      ≤ (s.live now).length := by omega
    _ = unanswered s.policy now (s.live now) := hl.symm
    _ ≤ unanswered s.policy now s.challenging :=
      unanswered_le (le_refl _) filter_sublist

open MigrationState in
lemma Capped.of_turn {s' : MigrationState} {ev : Option PathEvent} (h : Capped policy w)
    (ht : w.state.Turn call ev s') (hp : w.Paced call) :
    Capped policy ⟨s', ev.toList ++ w.log, call.now.getD w.clock⟩ := by
  obtain ⟨rfl, hc, hcp, hw⟩ := h
  have hcl := hp.clock_le
  have htr := trailing_le (d := minute) (l := migrations w.log) hcl
  cases ht with
  | @quiet _ challenging recent retiring hs hr hre =>
    refine ⟨rfl, ?_, (Nat.add_le_add htr (unanswered_le hcl hs)).trans hcp, hw⟩
    rcases hr with rfl | ⟨now, hn, rfl⟩
    · exact hc.later hcl
    · simp only [hn, Option.getD_some]
      exact (hc.expire (hp.now hn).1 (hp.now hn).2).1
  | @challenged source challenge now retiring heq hre hnw hrt =>
    obtain ⟨he, hl⟩ := hc.expire hp.1 hp.2.1
    have hrm := (hp.2.2 hnw).resolve_left (not_le.2 hrt)
    refine ⟨rfl, he, ?_, hw⟩
    calc trailing minute now (migrations w.log) + unanswered _ now (w.state.kept ++ [_])
        ≤ trailing minute now (migrations w.log) + (unanswered _ now w.state.kept + 1) :=
          Nat.add_le_add_left unanswered_append _
      _ ≤ w.state.policy.maxMigrationsPerMin.toNat := by omega
  | @moved source response now c hf =>
    obtain ⟨he, -⟩ := hc.expire hp.1 hp.2
    -- the challenge that is answered gives its place in the limit to the migration
    have hpl : trailing minute now (migrations w.log) +
        (unanswered w.state.policy now ((w.state.live now).eraseP (answers source response)) + 1) ≤
          w.state.policy.maxMigrationsPerMin.toNat :=
      (Nat.add_le_add htr ((unanswered_eraseP hf).trans
        (unanswered_le hcl (.refl _)))).trans hcp
    refine ⟨rfl, he.push, ?_, fun a => inside_cons_le ?_ (hw a)⟩
    · change trailing minute now (now :: migrations w.log) + unanswered _ now (eraseP _ _) ≤ _
      rw [trailing_cons_self]
      omega
    · change trailing minute now (migrations w.log) + 1 ≤ _
      omega

lemma capped_start : Capped policy (start policy initialPath) :=
  ⟨rfl, ⟨List.Pairwise.nil, fun _ h => (nomatch h), fun _ _ => rfl⟩, zero_le _, fun _ => zero_le _⟩

/-- If open challenges count, no minute has more migrations than the policy allows. -/
theorem migrations_capped (policy : MigrationPolicy) (initialPath : SocketAddr)
    (calls : List MigrationCall) (h : Along step Paced (start policy initialPath) calls) (a : ℕ) :
    inside minute a (migrations (run step (start policy initialPath) calls).log) ≤
      policy.maxMigrationsPerMin.toNat :=
  (inv_run (fun w call hw hp => hw.of_turn (w.state.step_turn call) hp) _ calls
    (capped_start initialPath) h).windows a

theorem migrations_capped_roam : Along step Paced (start .default (host 1)) roam ∧
      migrations (run step (start .default (host 1)) roam).log = [minute + millis 1000] ∧
      inside minute minute (migrations (run step (start .default (host 1)) roam).log) ≤
        MigrationPolicy.default.maxMigrationsPerMin.toNat :=
  ⟨by decide +kernel, by decide +kernel,
    migrations_capped .default (host 1) roam (by decide +kernel) minute⟩

/-- One migration a minute is allowed. Two paths are challenged, both answer at once. -/
theorem migrations_exceed_cap :
    let policy : MigrationPolicy := { MigrationPolicy.default with maxMigrationsPerMin := 1 }
    let calls : List MigrationCall :=
      [.inbound (some (bytes 2)) (host 2) minute, .inbound (some (bytes 3)) (host 3) minute,
        .response (host 2) (bytes 2) minute, .response (host 3) (bytes 3) minute]
    inside minute minute (migrations (run step (start policy (host 1)) calls).log) = 2 ∧
      policy.maxMigrationsPerMin.toNat = 1 := by
  decide +kernel

end Watch

end Mirage.Migration
