import Mirage.Lib.Runs
import Mirage.Session.Frames

/-!
# The log of rotations

`crates/discovery/src/rotalog.rs`: a client takes the checkpoints of an operator one after the
other, each signed with the pinned mother key and anchored on the ledger. BLAKE3 and Ed25519 are
parameters.
-/

namespace Mirage.Discovery

open Words Runs

structure RotaSuite where
  blake3 : Bytes → Bytes32
  /-- `VerifyingKey::from_bytes` and then `verify`. -/
  verify : Bytes32 → Bytes → Bytes64 → Bool

def genesisPrevHead : Bytes32 := .replicate 32 0

structure Checkpoint where
  seq : UInt64
  prevHead : Bytes32
  docCommitment : Bytes32
  deriving DecidableEq

structure SignedCheckpoint extends Checkpoint where
  signature : Bytes64
  deriving DecidableEq

structure AnchoredHead where
  head : Bytes32
  seq : UInt64

inductive RotaVerdict
  | accept
  | forged (msg : String)
  | regression (msg : String)
  | equivocation (msg : String)
  | gap (msg : String)
  | unverifiable (msg : String)

namespace RotaVerdict

def isAccept : RotaVerdict → Bool
  | accept => true
  | _ => false

def isAttack : RotaVerdict → Bool
  | forged _ | regression _ | equivocation _ => true
  | _ => false

end RotaVerdict

structure RotaLogState where
  motherPk : Bytes32
  lastSeq : Option UInt64
  lastHead : Bytes32
  deriving DecidableEq

variable (S : RotaSuite)

namespace Checkpoint

def headBytes (c : Checkpoint) : Bytes :=
  ascii "mirage-rotalog-head-v1" ++ c.prevHead.toList ++ beBytes 8 c.seq.toNat ++
    c.docCommitment.toList

def head (c : Checkpoint) : Bytes32 := S.blake3 c.headBytes

def signingBytes (c : Checkpoint) : Bytes :=
  ascii "mirage-rotalog-checkpoint-sig-v1" ++ beBytes 8 c.seq.toNat ++ c.prevHead.toList ++
    c.docCommitment.toList

end Checkpoint

def SignedCheckpoint.verify (c : SignedCheckpoint) (motherPk : Bytes32) : Bool :=
  S.verify motherPk c.signingBytes c.signature

namespace RotaLogState

def genesis (motherPk : Bytes32) : RotaLogState := ⟨motherPk, none, genesisPrevHead⟩

def fromPersisted (motherPk : Bytes32) (lastSeq : UInt64) (lastHead : Bytes32) : RotaLogState :=
  ⟨motherPk, some lastSeq, lastHead⟩

variable (s : RotaLogState) (c : SignedCheckpoint)

/-- `none` if `last + 1` overflows. -/
def check (anchored : Option AnchoredHead) : Option RotaVerdict :=
  if !c.verify S s.motherPk then
    some (.forged "checkpoint not signed by the pinned operator mother key")
  else match anchored with
  | none => some (.unverifiable "ledger reported no anchored head for this operator")
  | some a =>
    if c.seq ≠ a.seq then
      some (.equivocation
        s!"document seq {c.seq} != anchored seq {a.seq} (split view / equivocation)")
    else if c.head S ≠ a.head then
      some (.equivocation "signed document does not match the anchored head (equivocation)")
    else match s.lastSeq with
    | none => some .accept
    | some last =>
      if c.seq ≤ last then
        some (.regression s!"rotation seq {c.seq} <= last accepted {last} (rollback to an old key)")
      else do
        let next ← checkedSucc last.toNat
        if next < c.seq.toNat then
          some (.gap
            s!"rotation seq {c.seq} skips ahead of last accepted {last} (fetch intermediates)")
        else if c.prevHead ≠ s.lastHead then
          some (.equivocation
            "rotation claims to follow our last head but its prev_head differs (fork)")
        else some .accept

def accept : RotaLogState :=
  if s.lastSeq.all (· < c.seq) then { s with lastSeq := some c.seq, lastHead := c.head S } else s

def checkAndAccept (anchored : Option AnchoredHead) : Option (RotaVerdict × RotaLogState) := do
  let verdict ← s.check S c anchored
  some (verdict, if verdict.isAccept then s.accept S c else s)

/-- What is loaded at the next start: nothing was persisted before the first acceptance. -/
def restart : RotaLogState :=
  match s.lastSeq with
  | none => genesis s.motherPk
  | some last => fromPersisted s.motherPk last s.lastHead

end RotaLogState

inductive RotaCall
  | checkAndAccept (signed : SignedCheckpoint) (anchored : Option AnchoredHead)
  | restart

/-- A client, what it has accepted against which head, and whether a call panicked. -/
structure RotaClient where
  state : RotaLogState
  accepted : List (SignedCheckpoint × AnchoredHead)
  panicked : Bool

namespace RotaClient

def new (motherPk : Bytes32) : RotaClient := ⟨.genesis motherPk, [], false⟩

def step (r : RotaClient) : RotaCall → RotaClient
  | .restart => { r with state := r.state.restart }
  | .checkAndAccept c anchored =>
    match r.state.checkAndAccept S c anchored with
    | none => { r with panicked := true }
    | some (verdict, state) =>
      { r with
        state
        accepted := if verdict.isAccept then r.accepted ++ anchored.toList.map (c, ·)
          else r.accepted }

end RotaClient

/-- The calls on genuine checkpoints against one anchored head. -/
def retries (s : RotaLogState) (a : AnchoredHead) (cs : List SignedCheckpoint) : RotaLogState :=
  run (fun s c => ((s.checkAndAccept S c (some a)).map Prod.snd).getD s) s cs

end Mirage.Discovery
