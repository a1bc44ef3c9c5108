import Mirage.Lib.Maps
import Mirage.Lib.Runs
import Mirage.Lib.Records
import Mirage.Lib.Words

/-!
# The replay set

`crates/discovery/src/replay.rs`: the tokens a bridge has accepted, in memory and in the log, and
the process that runs it, restarts included.
-/

namespace Mirage.Discovery

open Words Maps Records

/-!
## The replay log

`crates/discovery/src/replay_log.rs`. The log is a header and 40-byte records, written through a
`BufWriter`. The position of the file handle is always the end of the file, so a write appends.
What can fail is the writing: each `append` comes with the faults it meets.
-/

abbrev TokenId := Bytes32

def mrrlMagic : Bytes := [0x4d, 0x52, 0x52, 0x4c]

def mrrlVersion : UInt8 := 0x01

def mrrlHeaderLen : ℕ := 8

def mrrlRecordLen : ℕ := 40

def mrrlHeader : Bytes := mrrlMagic ++ [mrrlVersion, 0, 0, 0]

structure Record where
  tokenId : TokenId
  expiresAt : UInt64
  deriving DecidableEq

namespace Record

def encode (r : Record) : Bytes := r.tokenId.toList ++ beBytes 8 r.expiresAt.toNat

def decode (rec : Bytes) : Record :=
  ⟨Vector.ofFn fun i => rec.getD i 0, UInt64.ofNat (beNat (rec.drop 32))⟩

end Record

inductive ReplayLogError
  | io
  | badHeader
  deriving DecidableEq

def headerOk (file : Bytes) : Bool :=
  mrrlHeaderLen ≤ file.length && file.take 4 = mrrlMagic && file.getD 4 0 = mrrlVersion

def wholeRecords (file : Bytes) : Bytes :=
  if mrrlHeaderLen < file.length then
    let remainder := (file.length - mrrlHeaderLen) % mrrlRecordLen
    if remainder ≠ 0 then file.take (file.length - remainder) else file
  else file

structure PersistentReplayLog where
  writer : BufWriter UInt8
  fsyncEveryWrite : Bool

/-- How much the file takes in each of the three writes, and whether `sync_data` succeeds. -/
structure Faults where
  write : Option ℕ := none
  flush : Option ℕ := none
  realign : Option ℕ := none
  sync : Bool := true

def bufCapacity : ℕ := 8192

namespace PersistentReplayLog

def «open» (file : Option Bytes) (fsyncEveryWrite : Bool) :
    Except ReplayLogError PersistentReplayLog :=
  match file with
  | none | some [] => .ok ⟨⟨wholeRecords mrrlHeader, []⟩, fsyncEveryWrite⟩
  | some (b :: bs) =>
    if headerOk (b :: bs) then .ok ⟨⟨wholeRecords (b :: bs), []⟩, fsyncEveryWrite⟩
    else .error .badHeader

def load (file : Option Bytes) (nowUnix : UInt64) : Except ReplayLogError (List Record) :=
  match file with
  | none | some [] => .ok []
  | some (b :: bs) =>
    if headerOk (b :: bs) then
      .ok ((blocks mrrlRecordLen Record.decode (b :: bs).length
        ((b :: bs).drop mrrlHeaderLen)).filter fun r => nowUnix ≤ r.expiresAt)
    else .error .badHeader

def compact (entries : List Record) : Bytes := mrrlHeader ++ entries.flatMap Record.encode

variable (log : PersistentReplayLog)

def file : Bytes := log.writer.sink

def writeRecord (record : Bytes) (os : Faults) : Except ReplayLogError Unit × PersistentReplayLog :=
  let p := log.writer.writeAll bufCapacity record os.write
  if p.1 = false then (.error .io, { log with writer := p.2 })
  else
    let q := p.2.flushBuf os.flush
    if q.1 = false then (.error .io, { log with writer := q.2 })
    else if log.fsyncEveryWrite && !os.sync then (.error .io, { log with writer := q.2 })
    else (.ok (), { log with writer := q.2 })

def realignToRecordBoundary (limit : Option ℕ) : PersistentReplayLog :=
  let w := (log.writer.flushBuf limit).2
  { log with writer := { w with sink := wholeRecords w.sink } }

def append (r : Record) (os : Faults) : Except ReplayLogError Unit × PersistentReplayLog :=
  match log.writeRecord r.encode os with
  | (.error e, log) => (.error e, log.realignToRecordBoundary os.realign)
  | (.ok (), log) => (.ok (), log)

end PersistentReplayLog

open PersistentReplayLog

/-- `sort_unstable_by` with the expiry descending: any order among equal expiries. -/
structure UnstableSort where
  sort : List Record → List Record
  perm : ∀ l, (sort l).Perm l
  sorted : ∀ l, (sort l).Pairwise fun a b => b.expiresAt ≤ a.expiresAt

structure ReplaySet where
  entries : AList fun _ : TokenId => UInt64
  maxEntries : ℕ
  log : Option PersistentReplayLog

namespace ReplaySet

def new (maxEntries : ℕ) : ReplaySet := ⟨∅, maxEntries, none⟩

/-- The loaded records that a set takes over: if there are too many, those that expire last. -/
def restored (S : UnstableSort) (maxEntries : ℕ) (entries : List Record) : List Record :=
  if maxEntries < entries.length then (S.sort entries).take maxEntries else entries

def newWithLog (S : UnstableSort) (maxEntries : ℕ) (log : PersistentReplayLog) (nowUnix : UInt64) :
    Except ReplayLogError ReplaySet :=
  match load (some log.file) nowUnix with
  | .error e => .error e
  | .ok entries =>
    match PersistentReplayLog.open (some (compact entries)) log.fsyncEveryWrite with
    | .error e => .error e
    | .ok fresh =>
      .ok ⟨insertAll ∅ ((restored S maxEntries entries).map fun r => (r.tokenId, r.expiresAt)),
        maxEntries, some fresh⟩

variable (rs : ReplaySet)

def evictExpired (nowUnix : UInt64) : ReplaySet :=
  { rs with entries := retain (fun expiry => nowUnix ≤ expiry) rs.entries }

def remove (tokenId : TokenId) : ReplaySet := { rs with entries := rs.entries.erase tokenId }

/-- The second half of `check_and_insert`: the entry is put in and mirrored to the log. -/
def insertLogged (tokenId : TokenId) (expiresAt : UInt64) (os : Faults) : Bool × ReplaySet :=
  let rs := { rs with entries := rs.entries.insert tokenId expiresAt }
  match rs.log with
  | none => (true, rs)
  | some log =>
    match log.append ⟨tokenId, expiresAt⟩ os with
    | (.error _, log) => (false, { rs with log := some log }.remove tokenId)
    | (.ok (), log) => (true, { rs with log := some log })

def checkAndInsert (tokenId : TokenId) (expiresAt nowUnix : UInt64) (os : Faults) :
    Bool × ReplaySet :=
  if tokenId ∈ rs.entries then (false, rs)
  else if rs.maxEntries ≤ size rs.entries then
    let rs := rs.evictExpired nowUnix
    if rs.maxEntries ≤ size rs.entries then (false, rs) else rs.insertLogged tokenId expiresAt os
  else rs.insertLogged tokenId expiresAt os

def boot (S : UnstableSort) (maxEntries : ℕ) (file : Option Bytes) (fsyncEveryWrite : Bool)
    (nowUnix : UInt64) : Except ReplayLogError ReplaySet :=
  match PersistentReplayLog.open file fsyncEveryWrite with
  | .error e => .error e
  | .ok log => newWithLog S maxEntries log nowUnix

/-- The process is started again over the file it left; if that fails, it is as it was. -/
def restart (S : UnstableSort) (nowUnix : UInt64) : ReplaySet :=
  match rs.log with
  | none => new rs.maxEntries
  | some log =>
    match boot S rs.maxEntries (some log.file) log.fsyncEveryWrite nowUnix with
    | .error _ => rs
    | .ok rs => rs

end ReplaySet

/-- What happens to a bridge's replay set; `sync` is whether the log's `sync_data` succeeds. -/
inductive ReplayOp
  | check (tokenId : TokenId) (expiresAt nowUnix : UInt64) (sync : Bool)
  | evict (nowUnix : UInt64)
  | restart (nowUnix : UInt64)

namespace ReplayOp

def nowUnix : ReplayOp → UInt64
  | check _ _ now _ | evict now | restart now => now

def Clocked (ops : List ReplayOp) : Prop := (ops.map nowUnix).Pairwise (· ≤ ·)

end ReplayOp

def ReplaySet.step (S : UnstableSort) (rs : ReplaySet) : ReplayOp → ReplaySet
  | .check tokenId expiresAt now sync =>
    (rs.checkAndInsert tokenId expiresAt now { sync := sync }).2
  | .evict now => rs.evictExpired now
  | .restart now => rs.restart S now

end Mirage.Discovery
