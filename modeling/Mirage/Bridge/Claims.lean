import Mathlib.Data.Finset.Card
import Mathlib.Data.Finset.Dedup
import Mirage.Discovery.ReplaySet
import Mirage.Lib.RecordLog

/-!
# Invite claims

`crates/bridge/src/claim_log.rs` and `ClaimState` of the bridge's `main.rs`: the ids that have been
claimed, in memory and in a log that a restart reads again. The log is written like the replay log,
with records of another kind, and an `append` comes with the same faults.
-/

namespace Mirage.Bridge

open Words Records
open Discovery (Faults bufCapacity)

def mcrlMagic : Bytes := [0x4d, 0x43, 0x52, 0x4c]

def mcrlVersion : UInt8 := 0x01

def mcrlHeaderLen : ℕ := 8

def mcrlRecordLen : ℕ := 64

def mcrlHeader : Bytes := mcrlMagic ++ [mcrlVersion, 0, 0, 0]

structure ClaimRecord where
  claimId : Bytes32
  rootTokenId : Bytes32
  deriving DecidableEq

namespace ClaimRecord

def encode (r : ClaimRecord) : Bytes := r.claimId.toList ++ r.rootTokenId.toList

def decode (rec : Bytes) : ClaimRecord := ⟨vec 32 rec, vec 32 (rec.drop 32)⟩

end ClaimRecord

inductive ClaimLogError
  | io
  | badHeader

structure PersistentClaimLog where
  writer : BufWriter UInt8
  fsyncEveryWrite : Bool

namespace PersistentClaimLog

def headerOk (file : Bytes) : Bool :=
  mcrlHeaderLen ≤ file.length && file.take 4 = mcrlMagic && file.getD 4 0 = mcrlVersion

def «open» (file : Option Bytes) (fsyncEveryWrite : Bool) :
    Except ClaimLogError PersistentClaimLog :=
  match file with
  | none | some [] => .ok ⟨⟨whole mcrlHeaderLen mcrlRecordLen mcrlHeader, []⟩, fsyncEveryWrite⟩
  | some (b :: bs) =>
    if headerOk (b :: bs) then
      .ok ⟨⟨whole mcrlHeaderLen mcrlRecordLen (b :: bs), []⟩, fsyncEveryWrite⟩
    else .error .badHeader

def records (body : Bytes) : List ClaimRecord :=
  blocks mcrlRecordLen ClaimRecord.decode body.length body

/-- `load` takes an empty file for one with a bad header. -/
def load (file : Option Bytes) : Except ClaimLogError (List ClaimRecord) :=
  match file with
  | none => .ok []
  | some file =>
    if headerOk file then .ok (records (file.drop mcrlHeaderLen)) else .error .badHeader

/-- With `write_record` and `realign_to_record_boundary` as `BufWriter.writeRecord` and
`BufWriter.realign`. -/
def append (log : PersistentClaimLog) (claimId rootTokenId : Bytes32) (os : Faults) :
    Except ClaimLogError Unit × PersistentClaimLog :=
  let (ok, writer) := log.writer.append (ClaimRecord.encode ⟨claimId, rootTokenId⟩)
    mcrlHeaderLen mcrlRecordLen bufCapacity os.write os.flush os.realign
    (!log.fsyncEveryWrite || os.sync)
  (if ok then .ok () else .error .io, { log with writer })

end PersistentClaimLog

def claimStatusOk : UInt8 := 0x00

def claimStatusAlreadyClaimed : UInt8 := 0x01

def claimStatusCapacity : UInt8 := 0x02

def claimStatusPolicy : UInt8 := 0x03

def claimStatusInternal : UInt8 := 0x05

structure ClaimState where
  enabled : Bool
  capacity : ℕ
  claimed : Finset Bytes32
  usedRoots : Finset Bytes32
  log : Option PersistentClaimLog

namespace ClaimState

def newWithOptionalLog (enabled : Bool) (capacity : ℕ) (path : Option (Option Bytes))
    (fsyncEveryWrite : Bool) : ClaimState :=
  match path with
  | none => ⟨enabled, capacity, ∅, ∅, none⟩
  | some file =>
    let records := (PersistentClaimLog.load file).toOption.getD []
    ⟨enabled, capacity, (records.map ClaimRecord.claimId).toFinset,
      (records.map ClaimRecord.rootTokenId).toFinset,
      (PersistentClaimLog.open file fsyncEveryWrite).toOption⟩

variable (s : ClaimState)

/-- The last part of `try_claim`: the claim goes into the log, if there is one, and then into
memory. -/
def record (claimId root : Bytes32) (os : Faults) : UInt8 × ClaimState :=
  let inserted : ClaimState :=
    { s with claimed := insert claimId s.claimed, usedRoots := insert root s.usedRoots }
  match s.log with
  | none => (claimStatusOk, inserted)
  | some log =>
    match log.append claimId root os with
    | (.error _, log) => (claimStatusInternal, { s with log := some log })
    | (.ok (), log) => (claimStatusOk, { inserted with log := some log })

def tryClaim (claimId : Bytes32) (rootTokenId : Option Bytes32) (os : Faults) :
    UInt8 × ClaimState :=
  if !s.enabled then (claimStatusPolicy, s)
  else match rootTokenId with
    | none => (claimStatusPolicy, s)
    | some root =>
      if root ∈ s.usedRoots then (claimStatusAlreadyClaimed, s)
      else if s.capacity ≤ s.usedRoots.card then (claimStatusCapacity, s)
      else if claimId ∈ s.claimed then (claimStatusAlreadyClaimed, s)
      else if s.capacity ≤ s.claimed.card then (claimStatusCapacity, s)
      else s.record claimId root os

end ClaimState

/-- `disk` is what is at the path while the log is closed, `acknowledged` how far the last accepted
claim was written. -/
structure ClaimRun where
  state : ClaimState
  disk : Option Bytes
  accepted : List ClaimRecord
  acknowledged : ℕ

inductive ClaimEvent
  | tryClaim (claimId : Bytes32) (rootTokenId : Option Bytes32) (os : Faults)
  /-- What the buffer holds is written as far as `flush` lets it, the file is cut, and the bridge
  starts again. -/
  | restart (flush cut : Option ℕ) (enabled : Bool) (capacity : ℕ) (fsyncEveryWrite : Bool)

namespace ClaimRun

def start (enabled : Bool) (capacity : ℕ) (file : Option Bytes) (fsyncEveryWrite : Bool) :
    ClaimRun :=
  ⟨.newWithOptionalLog enabled capacity (some file) fsyncEveryWrite, file, [], mcrlHeaderLen⟩

variable (s : ClaimRun)

def leftOver (flush cut : Option ℕ) : Option Bytes :=
  let file := match s.state.log with
    | none => s.disk
    | some log => some (log.writer.flushBuf flush).2.sink
  match cut with
  | none => file
  | some n => file.map (List.take n)

def fileLength : ℕ := (s.state.log.map fun log => log.writer.sink.length).getD 0

def step : ClaimEvent → ClaimRun
  | .tryClaim claimId root os =>
    let (status, state) := s.state.tryClaim claimId root os
    let s' : ClaimRun := { s with state }
    match root with
    | some root =>
      if status = claimStatusOk then
        { s' with accepted := s.accepted ++ [⟨claimId, root⟩], acknowledged := s'.fileLength }
      else s'
    | none => s'
  | .restart flush cut enabled capacity fsyncEveryWrite =>
    let file := s.leftOver flush cut
    { s with
      state := .newWithOptionalLog enabled capacity (some file) fsyncEveryWrite
      disk := file }

end ClaimRun

end Mirage.Bridge
