import Mirage.Bridge.Claims

/-!
# An invite is claimed once

What was accepted is in memory and, while the log is open, in the file up to `acknowledged`, so that
a restart finds it again.
-/

namespace Mirage.Bridge

open Words Records Runs PersistentClaimLog ClaimState Nat ClaimRecord
open List hiding Vector
open Discovery (Faults bufCapacity)

namespace ClaimRecord

@[simp]
lemma length_encode (r : ClaimRecord) : r.encode.length = mcrlRecordLen := by
  simp [encode, mcrlRecordLen]

lemma decode_encode (r : ClaimRecord) : decode r.encode = r := by
  have hid : vec 32 r.encode = r.claimId := by
    rw [encode, ← vec_take (le_refl 32), take_left' (by simp), vec_toList]
  have hr : r.encode.drop 32 = r.rootTokenId.toList := by rw [encode, drop_left' (by simp)]
  rw [decode, hid, hr, vec_toList]

end ClaimRecord

variable {log : PersistentClaimLog}

namespace PersistentClaimLog

abbrev IsHeader : Bytes → Prop := Records.IsHeader mcrlHeaderLen headerOk

lemma isHeader_mcrlHeader : IsHeader mcrlHeader := ⟨rfl, by decide⟩

lemma headerTest_headerOk : HeaderTest mcrlHeaderLen headerOk :=
  headerTest (by decide) (by decide) mcrlMagic 0 mcrlVersion

variable {hdr body more : Bytes}

lemma records_append (hb : body.length % mcrlRecordLen = 0) :
    records (body ++ more) = records body ++ records more :=
  blocks_length_append (by decide) hb more

lemma records_encode (r : ClaimRecord) : records r.encode = [r] := by
  have hf : [r].length ≤ r.encode.length := by
    rw [r.length_encode, length_singleton]
    decide
  have hb := blocks_flatMap length_encode (by decide) decode_encode [r] r.encode.length hf
  rwa [flatMap_singleton] at hb

lemma load_append (h : IsHeader hdr) (body : Bytes) :
    load (some (hdr ++ body)) = .ok (records body) := by
  simp only [load, headerTest_headerOk.append h, if_true]
  rw [← h.length_eq, drop_left]

lemma open_append (h : IsHeader hdr) (body : Bytes) (fsync : Bool) :
    PersistentClaimLog.open (some (hdr ++ body)) fsync =
      .ok ⟨⟨whole mcrlHeaderLen mcrlRecordLen (hdr ++ body), []⟩, fsync⟩ := by
  have hok := headerTest_headerOk.append h body
  rcases hf : hdr ++ body with _ | ⟨b, bs⟩
  · rw [append_eq_nil_iff] at hf
    exact absurd (hf.1 ▸ h.length_eq) nofun
  · rw [hf] at hok
    simp only [PersistentClaimLog.open, hok, if_true]

lemma open_whole {file : Option Bytes} {fsync : Bool}
    (h : PersistentClaimLog.open file fsync = .ok log) :
    ∃ hdr body, IsHeader hdr ∧ log.writer.sink = hdr ++ body ∧ body.length % mcrlRecordLen = 0 := by
  have hn : ∃ hdr body, IsHeader hdr ∧ whole mcrlHeaderLen mcrlRecordLen mcrlHeader = hdr ++ body
    ∧ body.length % mcrlRecordLen = 0 := ⟨mcrlHeader, [], isHeader_mcrlHeader, rfl, rfl⟩
  rcases file with _ | (_ | ⟨b, bs⟩)
  · obtain rfl := Except.ok.inj h
    exact hn
  · obtain rfl := Except.ok.inj h
    exact hn
  simp only [PersistentClaimLog.open] at h
  split_ifs at h with hok
  obtain rfl := Except.ok.inj h
  obtain ⟨hdr, body, hh, -, hw⟩ := headerTest_headerOk.whole (n := mcrlRecordLen) hok
  exact ⟨hdr, _, hh, hw, length_take_mul_div _ body⟩

end PersistentClaimLog

namespace ClaimRun

open PersistentClaimLog (IsHeader records)

variable {s : ClaimRun} {e : ClaimEvent}

/-- A claim finds whole records in the buffer, and a restart what is acknowledged in the file. -/
def Intact (s : ClaimRun) : ClaimEvent → Prop
  | .tryClaim _ _ _ => ∀ log ∈ s.state.log, log.writer.buf.length % mcrlRecordLen = 0
  | .restart _ cut _ _ _ => s.state.log.isSome ∧ ∀ n ∈ cut, s.acknowledged ≤ n

/-- The file has every accepted claim in its first `acknowledged` bytes. -/
def Stored (accepted : List ClaimRecord) (acknowledged : ℕ) (file : Bytes) : Prop :=
  ∃ hdr body more, IsHeader hdr ∧ file = hdr ++ body ++ more ∧
    body.length % mcrlRecordLen = 0 ∧ more.length % mcrlRecordLen = 0 ∧
    acknowledged = (hdr ++ body).length ∧ ∀ r ∈ accepted, r ∈ records body

structure Inv (s : ClaimRun) : Prop where
  claimed : ∀ r ∈ s.accepted, r.claimId ∈ s.state.claimed
  usedRoots : ∀ r ∈ s.accepted, r.rootTokenId ∈ s.state.usedRoots
  nodupIds : (s.accepted.map claimId).Nodup
  nodupRoots : (s.accepted.map rootTokenId).Nodup
  stored : ∀ log, s.state.log = some log → Stored s.accepted s.acknowledged log.writer.sink

lemma inv_start (enabled : Bool) (capacity : ℕ) (file : Option Bytes) (fsync : Bool) :
    (start enabled capacity file fsync).Inv := by
  refine ⟨nofun, nofun, nodup_nil, nodup_nil, fun log hl => ?_⟩
  rcases ho : PersistentClaimLog.open file fsync with err | log'
  · simp [start, newWithOptionalLog, ho, Except.toOption] at hl
  obtain rfl : log' = log := by simpa [start, newWithOptionalLog, ho, Except.toOption] using hl
  obtain ⟨hdr, body, hh, hf, hb⟩ := open_whole ho
  exact ⟨hdr, [], body, hh, by rw [hf, append_nil], rfl, hb,
    by rw [append_nil, hh.length_eq]; rfl, nofun⟩

variable {acknowledged : ℕ}

lemma Stored.append {accepted : List ClaimRecord} (h : Stored accepted acknowledged log.writer.sink)
    (hbu : log.writer.buf.length % mcrlRecordLen = 0) (r : ClaimRecord) (os : Faults) :
    (log.append r.claimId r.rootTokenId os).1 = .ok () ∧
      Stored (accepted ++ [r]) (log.append r.claimId r.rootTokenId os).2.writer.sink.length
        (log.append r.claimId r.rootTokenId os).2.writer.sink ∨
    (∃ err, (log.append r.claimId r.rootTokenId os).1 = .error err) ∧
      Stored accepted acknowledged (log.append r.claimId r.rootTokenId os).2.writer.sink := by
  obtain ⟨hdr, body, more, hh, hf, hb, hm, ha, hst⟩ := h
  have hw : (body ++ more).length % mcrlRecordLen = 0 := by
    rw [length_append, add_mod, hb, hm, zero_mod]
  rw [append_assoc] at hf
  have hc : mcrlRecordLen < bufCapacity := by decide
  obtain ⟨new, more', -, hs, hm', -, hr, hok⟩ :=
    BufWriter.append_spec hh.length_eq hw hf hbu r.length_encode hc os.write os.flush
      os.realign (!log.fsyncEveryWrite || os.sync)
  simp only [PersistentClaimLog.append]
  generalize log.writer.append r.encode mcrlHeaderLen mcrlRecordLen bufCapacity os.write
    os.flush os.realign (!log.fsyncEveryWrite || os.sync) = p at hs hr hok
  obtain ⟨_ | _, w⟩ := p
  · refine .inr ⟨⟨.io, rfl⟩, hdr, body, more ++ more', hh, ?_, hb, ?_, ha, hst⟩
    · simpa only [append_assoc] using hs
    · rw [length_append, add_mod, hm, hm', zero_mod]
  obtain ⟨rfl, he⟩ := hok rfl
  rw [he, append_nil] at hr
  obtain rfl := hr (zero_mod _)
  have hbf : (body ++ more ++ log.writer.buf).length % mcrlRecordLen = 0 := by
    rw [length_append, add_mod, hw, hbu, zero_mod]
  refine .inl ⟨rfl, hdr, body ++ more ++ (log.writer.buf ++ r.encode), [], hh, ?_, ?_, rfl, ?_,
    fun r' hr' => ?_⟩
  · rw [append_nil, hs, append_assoc]
  · rw [length_append, add_mod, hw, hm', zero_mod]
  · rw [hs, append_assoc]
  rw [← append_assoc, records_append hbf, records_encode, append_assoc, records_append hb]
  rcases mem_append.1 hr' with hr' | hr'
  · exact mem_append_left _ (mem_append_left _ (hst r' hr'))
  · exact mem_append_right _ hr'

lemma tryClaim_eq (s : ClaimState) (claimId : Bytes32) (root : Option Bytes32) (os : Faults) :
    ((s.tryClaim claimId root os).1 ≠ claimStatusOk ∧ (s.tryClaim claimId root os).2 = s) ∨
    ∃ r, root = some r ∧ r ∉ s.usedRoots ∧ claimId ∉ s.claimed ∧
      s.tryClaim claimId root os = s.record claimId r os := by
  have hp : claimStatusPolicy ≠ claimStatusOk := by decide
  have hcl : claimStatusAlreadyClaimed ≠ claimStatusOk := by decide
  have hc : claimStatusCapacity ≠ claimStatusOk := by decide
  cases root with
  | none =>
    simp only [tryClaim]
    split_ifs <;> exact .inl ⟨hp, rfl⟩
  | some r =>
    simp only [tryClaim]
    split_ifs with hen hr hcp hid hc'
    · exact .inl ⟨hp, rfl⟩
    · exact .inl ⟨hcl, rfl⟩
    · exact .inl ⟨hc, rfl⟩
    · exact .inl ⟨hcl, rfl⟩
    · exact .inl ⟨hc, rfl⟩
    · exact .inr ⟨r, rfl, hr, hid, rfl⟩

lemma Inv.refused (h : s.Inv) (hl : Stored s.accepted s.acknowledged log.writer.sink) :
    Inv { s with state := { s.state with log := some log } } := by
  refine ⟨h.claimed, h.usedRoots, h.nodupIds, h.nodupRoots, fun log' hl' => ?_⟩
  obtain rfl := Option.some.inj hl'
  exact hl

lemma Inv.accept (h : s.Inv) {r : ClaimRecord}
    {log : Option PersistentClaimLog} (hr : r.rootTokenId ∉ s.state.usedRoots)
    (hid : r.claimId ∉ s.state.claimed)
    (hl : ∀ log', log = some log' → Stored (s.accepted ++ [r]) acknowledged log'.writer.sink) :
    Inv { s with
      state := { s.state with
        claimed := insert r.claimId s.state.claimed
        usedRoots := insert r.rootTokenId s.state.usedRoots
        log }
      accepted := s.accepted ++ [r]
      acknowledged } := by
  refine ⟨fun r' hr' => ?_, fun r' hr' => ?_, ?_, ?_, hl⟩
  · rcases mem_append.1 hr' with hr' | hr'
    · exact Finset.mem_insert_of_mem (h.claimed r' hr')
    · rw [mem_singleton.1 hr']
      exact Finset.mem_insert_self _ _
  · rcases mem_append.1 hr' with hr' | hr'
    · exact Finset.mem_insert_of_mem (h.usedRoots r' hr')
    · rw [mem_singleton.1 hr']
      exact Finset.mem_insert_self _ _
  · rw [map_append]
    refine h.nodupIds.append (nodup_singleton _) ?_
    simp only [map_cons, map_nil, disjoint_singleton]
    intro hm
    obtain ⟨r', hr', heq⟩ := mem_map.1 hm
    exact hid (heq ▸ h.claimed r' hr')
  · rw [map_append]
    refine h.nodupRoots.append (nodup_singleton _) ?_
    simp only [map_cons, map_nil, disjoint_singleton]
    intro hm
    obtain ⟨r', hr', heq⟩ := mem_map.1 hm
    exact hr (heq ▸ h.usedRoots r' hr')

lemma Inv.tryClaim (h : s.Inv) {claimId : Bytes32} {root : Option Bytes32} {os : Faults}
    (hi : s.Intact (.tryClaim claimId root os)) : (s.step (.tryClaim claimId root os)).Inv := by
  rcases tryClaim_eq s.state claimId root os with ⟨hne, hsm⟩ | ⟨r, rfl, hr, hid, heq⟩
  · have hst : s.step (.tryClaim claimId root os) = s := by
      cases root with
      | none => simp only [step, hsm]
      | some r => simp only [step, hsm, if_neg hne]
    rw [hst]
    exact h
  simp only [step, heq, record]
  rcases hl : s.state.log with _ | log
  · exact h.accept (r := ⟨claimId, r⟩) hr hid nofun
  have hs := (h.stored log hl).append (hi log hl) ⟨claimId, r⟩ os
  rcases hp : log.append claimId r os with ⟨res, log'⟩
  simp only [hp] at hs ⊢
  rcases hs with ⟨rfl, hs⟩ | ⟨⟨err, rfl⟩, hs⟩
  · refine h.accept (r := ⟨claimId, r⟩) hr hid fun log'' hlg'' => ?_
    obtain rfl := Option.some.inj hlg''
    exact hs
  · exact h.refused hs

lemma leftOver_eq (hl : s.state.log = some log) {hdr body more : Bytes}
    (hf : log.writer.sink = hdr ++ body ++ more) (flush cut : Option ℕ)
    (hc : ∀ n ∈ cut, (hdr ++ body).length ≤ n) :
    ∃ rest, s.leftOver flush cut = some (hdr ++ body ++ rest) := by
  obtain ⟨t, ht⟩ := BufWriter.sink_prefix_flushBuf flush
  rw [hf, append_assoc] at ht
  simp only [leftOver, hl, ← ht]
  cases cut with
  | none => exact ⟨_, rfl⟩
  | some n =>
    obtain ⟨k, rfl⟩ := Nat.exists_eq_add_of_le (hc n rfl)
    simp only [Option.map_some, take_length_add_append]
    exact ⟨_, rfl⟩

lemma Inv.restart (h : s.Inv) {flush cut : Option ℕ} {enabled : Bool} {capacity : ℕ}
    {fsync : Bool} (hi : s.Intact (.restart flush cut enabled capacity fsync)) :
    (s.step (.restart flush cut enabled capacity fsync)).Inv := by
  obtain ⟨hl, hc⟩ := hi
  obtain ⟨log, hl⟩ := Option.isSome_iff_exists.1 hl
  obtain ⟨hdr, body, more, hh, hf, hb, hm, ha, hs⟩ := h.stored log hl
  rw [ha] at hc
  obtain ⟨rest, hrs⟩ := leftOver_eq hl hf flush cut hc
  rw [append_assoc] at hrs
  have hld := load_append hh (body ++ rest)
  have ho := open_append hh (body ++ rest) fsync
  rw [PersistentClaimLog.records_append hb] at hld
  have hw := whole_append_append hh.length_eq hb rest
  rw [append_assoc] at hw
  rw [hw] at ho
  have hrd (r) (hr : r ∈ s.accepted) : r ∈ records body ++ records rest :=
    mem_append_left _ (hs r hr)
  simp only [step, hrs, newWithOptionalLog, hld, Except.toOption, Option.getD_some]
  refine ⟨fun r hr => ?_, fun r hr => ?_, h.nodupIds, h.nodupRoots, fun log' hl' => ?_⟩
  · exact mem_toFinset.2 (mem_map_of_mem (hrd r hr))
  · exact mem_toFinset.2 (mem_map_of_mem (hrd r hr))
  simp only [ho, Option.some.injEq] at hl'
  obtain rfl := hl'
  exact ⟨hdr, body, _, hh, rfl, hb, length_take_mul_div _ rest, ha, hs⟩

lemma inv_step (s : ClaimRun) (e : ClaimEvent) (h : s.Inv) (hi : s.Intact e) : (s.step e).Inv := by
  cases e with
  | tryClaim claimId root os => exact h.tryClaim hi
  | restart flush cut enabled capacity fsync => exact h.restart hi

/-- Across failures and restarts no claim is accepted twice and no root token pays for two. -/
theorem claimed_once (enabled : Bool) (capacity : ℕ) (file : Option Bytes) (fsync : Bool)
    (es : List ClaimEvent) (h : Along step Intact (start enabled capacity file fsync) es) :
    ((run step (start enabled capacity file fsync) es).accepted.map claimId).Nodup ∧
    ((run step (start enabled capacity file fsync) es).accepted.map rootTokenId).Nodup := by
  have hi := inv_run inv_step _ es (inv_start enabled capacity file fsync) h
  exact ⟨hi.nodupIds, hi.nodupRoots⟩

instance (s : ClaimRun) : DecidablePred s.Intact := fun _ => by
  unfold Intact
  split <;> infer_instance

def sampleClaims : List ClaimEvent :=
  [.tryClaim (.replicate 32 1) (some (.replicate 32 129)) { flush := some 10 },
    .tryClaim (.replicate 32 2) (some (.replicate 32 130)) {},
    .tryClaim (.replicate 32 3) (some (.replicate 32 131)) { flush := some 0, realign := some 0 },
    .restart (some 20) (some 140) true 1024 true,
    .tryClaim (.replicate 32 2) (some (.replicate 32 132)) {},
    .tryClaim (.replicate 32 3) (some (.replicate 32 131)) {}]

theorem claimed_once_restart :
    ((run step (start true 1024 none true) sampleClaims).accepted.map claimId).Nodup ∧
    ((run step (start true 1024 none true) sampleClaims).accepted.map rootTokenId).Nodup :=
  claimed_once true 1024 none true sampleClaims (by decide +kernel)

/-- Ten bytes of a record are written, and the rest comes before the second one. -/
theorem claimed_twice : (run step (start true 1024 none true)
      [.tryClaim (.replicate 32 1) (some (.replicate 32 129))
          { flush := some 10, realign := some 0 },
        .tryClaim (.replicate 32 2) (some (.replicate 32 130)) {},
        .restart none none true 1024 true,
        .tryClaim (.replicate 32 2) (some (.replicate 32 130)) {}]).accepted =
      [⟨.replicate 32 2, .replicate 32 130⟩, ⟨.replicate 32 2, .replicate 32 130⟩] := by
  decide +kernel

end ClaimRun

end Mirage.Bridge
