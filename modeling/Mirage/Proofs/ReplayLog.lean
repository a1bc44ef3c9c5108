import Mirage.Discovery.ReplaySet
import Mirage.Lib.RecordLog

/-!
# The replay log under write faults

As long as every `append` finds a whole number of records in the writer's buffer, `load` gives back
what was appended.
-/

namespace Mirage.Discovery

open Words Records Runs Record Nat PersistentReplayLog
open List hiding Vector

namespace Record

@[simp]
lemma length_encode (r : Record) : r.encode.length = mrrlRecordLen := by
  simp [encode, mrrlRecordLen]

lemma decode_encode (r : Record) : decode r.encode = r := by
  obtain ⟨tokenId, expiresAt⟩ := r
  have hid : (Vector.ofFn fun i => (encode ⟨tokenId, expiresAt⟩).getD i 0) = tokenId := by
    simp [encode, getD_eq_getElem?_getD, getElem?_append_left]
  have he : (encode ⟨tokenId, expiresAt⟩).drop 32 = beBytes 8 expiresAt.toNat := by
    rw [encode, drop_append_of_le_length (by simp), drop_of_length_le (by simp), nil_append]
  rw [decode, hid, he, beNat_beBytes expiresAt.toNat_lt, UInt64.ofNat_toNat]

lemma encode_decode {rec : Bytes} (h : rec.length = mrrlRecordLen) : (decode rec).encode = rec := by
  have hl : (rec.drop 32).length = 8 := by
    rw [length_drop, h]
    rfl
  have hid : (Vector.ofFn fun i : Fin 32 => rec.getD i 0).toList = rec.take 32 := by
    refine ext_getElem (by simp [h, mrrlRecordLen]) fun i h₁ h₂ => ?_
    have hi : i < rec.length := h₂.trans_le (length_take_le' _ _)
    simp [getD_eq_getElem?_getD, hi]
  have he : (UInt64.ofNat (beNat (rec.drop 32))).toNat = beNat (rec.drop 32) := by
    have hlt := beNat_lt (rec.drop 32)
    rw [hl] at hlt
    exact UInt64.toNat_ofNat_of_lt' hlt
  have hb := beBytes_beNat (rec.drop 32)
  rw [hl] at hb
  rw [decode, encode, hid, he, hb, take_append_drop]

end Record

lemma length_flatMap_encode (rs : List Record) :
    (rs.flatMap encode).length = mrrlRecordLen * rs.length :=
  length_flatMap length_encode rs

abbrev IsHeader : Bytes → Prop := Records.IsHeader mrrlHeaderLen headerOk

lemma isHeader_mrrlHeader : IsHeader mrrlHeader := ⟨rfl, by decide⟩

lemma headerTest_headerOk : HeaderTest mrrlHeaderLen headerOk :=
  headerTest (by decide) (by decide) mrrlMagic 0 mrrlVersion

variable {hdr : Bytes} {rs : List Record}

lemma wholeRecords_append (h : IsHeader hdr) (body : Bytes) : wholeRecords (hdr ++ body)
    = hdr ++ body.take (mrrlRecordLen * (body.length / mrrlRecordLen)) :=
  whole_append h.length_eq body

namespace PersistentReplayLog

lemma load_whole (h : IsHeader hdr) (rs : List Record) (now : UInt64) :
    load (some (hdr ++ rs.flatMap encode)) now = .ok (rs.filter fun r => now ≤ r.expiresAt) := by
  rcases hf : hdr ++ rs.flatMap encode with _ | ⟨b, bs⟩
  · rw [append_eq_nil_iff] at hf
    exact absurd (hf.1 ▸ h.length_eq) nofun
  have hok := headerTest_headerOk.append h (rs.flatMap encode)
  rw [hf] at hok
  have hd : (b :: bs).drop mrrlHeaderLen = rs.flatMap encode := by
    rw [← hf, ← h.length_eq, drop_left]
  have hfl : rs.length ≤ (b :: bs).length := by
    rw [← hf, length_append, length_flatMap_encode, mrrlRecordLen]
    omega
  simp only [load, hok, if_true, hd]
  rw [blocks_flatMap length_encode (by decide) decode_encode rs _ hfl]

lemma open_whole {file : Option Bytes} {fsync : Bool} {log : PersistentReplayLog}
    (h : PersistentReplayLog.open file fsync = .ok log) :
    ∃ (hdr : Bytes) (rs : List Record), IsHeader hdr ∧
      log = ⟨⟨hdr ++ rs.flatMap encode, []⟩, fsync⟩ ∧
      ∀ now, load file now = .ok (rs.filter fun r => now ≤ r.expiresAt) := by
  rcases file with _ | (_ | ⟨b, bs⟩)
  · exact ⟨mrrlHeader, [], isHeader_mrrlHeader, (Except.ok.inj h).symm, fun _ => rfl⟩
  · exact ⟨mrrlHeader, [], isHeader_mrrlHeader, (Except.ok.inj h).symm, fun _ => rfl⟩
  simp only [PersistentReplayLog.open] at h
  split_ifs at h with hok
  obtain ⟨hdr, body, hh, hf, hw⟩ := headerTest_headerOk.whole (n := mrrlRecordLen) hok
  refine ⟨hdr, blocks mrrlRecordLen decode (b :: bs).length body, hh, ?_, fun now => ?_⟩
  · have hl : body.length / mrrlRecordLen ≤ (b :: bs).length :=
      (div_le_self _ _).trans (by rw [hf, length_append]; exact le_add_left _ _)
    rw [flatMap_blocks (by decide) (fun _ => encode_decode) _ _ hl, ← hw]
    exact (Except.ok.inj h).symm
  · rw [load, if_pos hok, hf, ← hh.length_eq, drop_left]

end PersistentReplayLog

/-- A log, the records that were tried, and those for which `append` returned `Ok`. -/
structure LogRun where
  log : PersistentReplayLog
  tried : List Record := []
  stored : List Record := []

namespace LogRun

def append (s : LogRun) (a : Record × Faults) : LogRun :=
  let p := s.log.append a.1 a.2
  ⟨p.2, s.tried ++ [a.1], if p.1.isOk then s.stored ++ [a.1] else s.stored⟩

def Flushed (s : LogRun) (_ : Record × Faults) : Prop :=
  s.log.writer.buf.length % mrrlRecordLen = 0
deriving Decidable

/-- The file has whole records, of which those stored are a part. -/
def Inv (hdr : Bytes) (old : List Record) (s : LogRun) : Prop :=
  ∃ K, s.log.file = hdr ++ (old ++ K).flatMap Record.encode ∧ s.stored.Sublist K ∧
    K.Sublist s.tried ∧ (s.log.writer.buf.length % mrrlRecordLen = 0 →
      ∃ B, s.log.writer.buf = B.flatMap Record.encode ∧ (K ++ B).Sublist s.tried)

lemma append_eq (log : PersistentReplayLog) (r : Record) (os : Faults) : log.append r os =
      let p := log.writer.append r.encode mrrlHeaderLen mrrlRecordLen bufCapacity os.write
        os.flush os.realign (!log.fsyncEveryWrite || os.sync)
      (if p.1 then .ok () else .error .io, { log with writer := p.2 }) := by
  simp only [PersistentReplayLog.append, PersistentReplayLog.writeRecord, BufWriter.append,
    BufWriter.writeRecord, PersistentReplayLog.realignToRecordBoundary, BufWriter.realign]
  generalize log.writer.writeAll bufCapacity r.encode os.write = p
  obtain ⟨_ | _, w⟩ := p
  · rfl
  · rcases hq : w.flushBuf os.flush with ⟨_ | _, w'⟩
    · rfl
    · cases log.fsyncEveryWrite <;> cases os.sync <;> rfl

lemma append_records {R : List Record} (h : IsHeader hdr) {log : PersistentReplayLog}
    (hf : log.file = hdr ++ R.flatMap encode) {B : List Record}
    (hB : log.writer.buf = B.flatMap encode) (r : Record) (os : Faults) : ∃ N j, N.Sublist [r] ∧
      (log.append r os).2.file = hdr ++ (R ++ (B ++ N).take j).flatMap encode ∧
      ((log.append r os).2.writer.buf.length % mrrlRecordLen = 0 →
        (log.append r os).2.writer.buf = ((B ++ N).drop j).flatMap encode) ∧
      ((log.append r os).1.isOk → (B ++ N).take j = B ++ [r]) := by
  have hb : (R.flatMap encode).length % mrrlRecordLen = 0 := by
    rw [length_flatMap_encode, mul_mod_right]
  have hbf : log.writer.buf.length % mrrlRecordLen = 0 := by
    rw [hB, length_flatMap_encode, mul_mod_right]
  have hc : mrrlRecordLen < bufCapacity := by decide
  obtain ⟨new, more, hnw, hsn, hm, hpr, hr, hok⟩ :=
    BufWriter.append_spec h.length_eq hb hf hbf r.length_encode hc os.write os.flush
      os.realign (!log.fsyncEveryWrite || os.sync)
  obtain ⟨N, hN, rfl⟩ : ∃ N : List Record, N.Sublist [r] ∧ new = N.flatMap encode := by
    rcases hnw with rfl | rfl
    · exact ⟨[], nil_sublist _, rfl⟩
    · exact ⟨[r], .refl _, (flatMap_singleton _ _).symm⟩
  rw [hB, ← flatMap_append] at hpr hr
  obtain ⟨j, hj⟩ := dvd_of_mod_eq_zero hm
  have hm' : more = ((B ++ N).take j).flatMap encode := by
    rw [← take_flatMap length_encode, ← hj]
    exact prefix_iff_eq_take.1 hpr
  subst hm'
  have hs : (B ++ N).flatMap encode
      = ((B ++ N).take j).flatMap encode ++ ((B ++ N).drop j).flatMap encode := by
    rw [← flatMap_append, take_append_drop]
  rw [hs] at hr
  rw [append_eq]
  refine ⟨N, j, hN, ?_, fun hz => append_cancel_left (hr hz), fun hrs => ?_⟩
  · rw [flatMap_append, ← append_assoc]
    exact hsn
  -- Nothing is left in the buffer, so all of it has been taken.
  simp only at hrs
  split_ifs at hrs with hp
  · obtain ⟨ha, he⟩ := hok hp
    rw [he] at hr
    have hn := congrArg length (append_cancel_left (hr (zero_mod _)))
    rw [length_flatMap_encode, length_nil, mrrlRecordLen] at hn
    have ht : (B ++ N).take j = B ++ N := by
      rw [← append_nil ((B ++ N).take j), ← length_eq_zero_iff.1 (by omega :
        ((B ++ N).drop j).length = 0), take_append_drop]
    have ho : N.length = 1 := by
      have hl := congrArg length ha
      rw [length_flatMap_encode, r.length_encode, mrrlRecordLen] at hl
      omega
    rw [ht, hN.eq_of_length ho]
  · cases hrs

lemma inv_append {old : List Record} (h : IsHeader hdr) (s : LogRun) (a : Record × Faults)
    (hs : s.Inv hdr old) (hf : s.Flushed a) : (s.append a).Inv hdr old := by
  obtain ⟨r, os⟩ := a
  obtain ⟨K, hfl, hst, -, hb⟩ := hs
  obtain ⟨B, hB, ht⟩ := hb hf
  obtain ⟨N, j, hN, hf', hr, hok⟩ := append_records h hfl hB r os
  have ht' : (K ++ (B ++ N)).Sublist (s.tried ++ [r]) := by
    rw [← append_assoc]
    exact ht.append hN
  refine ⟨K ++ (B ++ N).take j, ?_, ?_, ?_, fun hz => ⟨(B ++ N).drop j, hr hz, ?_⟩⟩
  · rw [← append_assoc]
    exact hf'
  · simp only [LogRun.append]
    split_ifs with hrs
    · rw [hok hrs, ← append_assoc]
      exact (hst.trans (sublist_append_left K B)).append (.refl [r])
    · exact hst.trans (sublist_append_left _ _)
  · exact ((Sublist.refl K).append (take_sublist j (B ++ N))).trans ht'
  · rw [append_assoc, take_append_drop]
    exact ht'

/-- The file has whole records, and `load` finds the unexpired ones with all those stored. -/
def Aligned (old : List Record) (s : LogRun) : Prop :=
  mrrlHeaderLen ≤ s.log.file.length ∧
    (s.log.file.length - mrrlHeaderLen) % mrrlRecordLen = 0 ∧
    ∃ K : List Record, s.stored.Sublist K ∧ K.Sublist s.tried ∧
      ∀ now, load (some s.log.file) now = .ok ((old ++ K).filter fun r => now ≤ r.expiresAt)

lemma Inv.aligned {old : List Record} {s : LogRun} (h : IsHeader hdr) (hs : s.Inv hdr old) :
    s.Aligned old := by
  obtain ⟨K, hf, hst, ht, -⟩ := hs
  have hl : s.log.file.length = mrrlHeaderLen + mrrlRecordLen * (old ++ K).length := by
    rw [hf, length_append, h.length_eq, length_flatMap_encode]
  refine ⟨hl ▸ le_add_right _ _, ?_, K, hst, ht, fun now => ?_⟩
  · rw [hl, Nat.add_sub_cancel_left, Nat.mul_mod_right]
  · rw [hf]
    exact load_whole h _ now

/-- If every `append` finds whole records in the buffer, the log stays aligned. -/
theorem aligned_of_flushed (file : Option Bytes) (fsync : Bool) (log : PersistentReplayLog)
    (hopen : PersistentReplayLog.open file fsync = .ok log) (as : List (Record × Faults))
    (hf : Along LogRun.append Flushed { log := log } as) : ∃ old, (∀ now, load file now
        = .ok (old.filter fun r => now ≤ r.expiresAt)) ∧
      (run LogRun.append { log := log } as).Aligned old := by
  obtain ⟨hdr, old, hh, rfl, hl⟩ := open_whole hopen
  refine ⟨old, hl, Inv.aligned hh (Runs.inv_run (inv_append hh) _ as ?_ hf)⟩
  refine ⟨[], ?_, .refl _, .refl _, fun _ => ⟨[], rfl, ?_⟩⟩
  · rw [List.append_nil]
    rfl
  · exact .refl _

/-- Appends of which one fails with nothing written and one after its record has reached the
file. -/
theorem aligned_of_flushed_failing :
    let log : PersistentReplayLog := ⟨⟨mrrlHeader, []⟩, true⟩
    let as : List (Record × Faults) :=
      [(⟨Vector.replicate 32 1, 100⟩, {}),
        (⟨Vector.replicate 32 2, 100⟩, { flush := some 0, realign := some 0 }),
        (⟨Vector.replicate 32 3, 100⟩, { sync := false })]
    Along LogRun.append Flushed { log := log } as ∧
    ∃ old, (∀ now, PersistentReplayLog.load none now
        = .ok (old.filter fun r => now ≤ r.expiresAt)) ∧
      (run LogRun.append { log := log } as).Aligned old :=
  ⟨by decide +kernel, aligned_of_flushed none true _ (by rfl) _ (by decide +kernel)⟩

/-- The second record comes behind the thirty bytes of the first that the buffer kept. -/
theorem torn_after_fault :
    let s := run LogRun.append { log := ⟨⟨mrrlHeader, []⟩, false⟩ }
      [(⟨Vector.replicate 32 1, 100⟩, { flush := some 10, realign := some 0 }),
        (⟨Vector.replicate 32 2, 100⟩, {})]
    s.stored = [⟨Vector.replicate 32 2, 100⟩] ∧
    (s.log.file.length - mrrlHeaderLen) % mrrlRecordLen = 30 ∧
    load (some s.log.file) 0 = .ok
      [⟨#v[1, 1, 1, 1, 1, 1, 1, 1, 1, 1, 1, 1, 1, 1, 1, 1, 1, 1, 1, 1, 1, 1, 0, 0, 0, 0, 0, 0, 0,
        100, 2, 2], 0x0202020202020202⟩] := by
  decide +kernel

end LogRun

end Mirage.Discovery
