import Mathlib.Data.Vector.Basic

/-!
# Connection migration

`crates/migration/src/state.rs`, with `policy.rs` and `challenge.rs`: which path a connection is on,
and which ones are challenged before it may move there. An instant is the number of nanoseconds
since the earliest one, so that `checked_sub` has its `None`.
-/

namespace Mirage.Migration

inductive SocketAddr
  | v4 (ip : Vector UInt8 4) (port : UInt16)
  | v6 (ip : Vector UInt16 8) (port : UInt16) (flowinfo scopeId : UInt32)
  deriving DecidableEq

def millis (ms : ℕ) : ℕ := ms * 1000000

structure MigrationPolicy where
  validationTimeout : ℕ
  maxMigrationsPerMin : UInt32
  retirementGrace : ℕ

def MigrationPolicy.default : MigrationPolicy := ⟨millis 1500, 6, millis 3000⟩

abbrev PathChallenge := Vector UInt8 8

abbrev PathResponse := Vector UInt8 8

def PathChallenge.toResponse (c : PathChallenge) : PathResponse := c

def PathResponse.matches (r : PathResponse) (c : PathChallenge) : Bool := r = c

inductive PathState
  | active
  | challenging
  | retiring

inductive MigrationError
  | rateLimit (max : UInt32)
  | unmatchedResponse
  | csprng
  deriving DecidableEq

inductive MigrationDecision
  | active
  | newChallenge (path : SocketAddr) (challenge : PathChallenge)
  | migrated (newActive retiring : SocketAddr)
  | stillChallenging
  deriving DecidableEq

structure Outstanding where
  path : SocketAddr
  challenge : PathChallenge
  issued : ℕ
  deriving DecidableEq

structure MigrationState where
  policy : MigrationPolicy
  active : SocketAddr
  challenging : List Outstanding
  recentMigrations : List ℕ
  retiring : Option (SocketAddr × ℕ)

def maxSimultaneousChallenges : ℕ := 4

/-- `now.checked_sub(d).unwrap_or(now)`. -/
def cutoff (now d : ℕ) : ℕ := if d ≤ now then now - d else now

def minute : ℕ := millis 60000

namespace MigrationState

def new (policy : MigrationPolicy) (initialPath : SocketAddr) : MigrationState :=
  ⟨policy, initialPath, [], [], none⟩

variable (s : MigrationState)

def pathState (addr : SocketAddr) : Option PathState :=
  if addr = s.active then some .active
  else if s.challenging.any fun c => c.path = addr then some .challenging
  else if s.retiring.any fun r => r.1 = addr then some .retiring
  else none

def finalizeRetirement : MigrationState := { s with retiring := none }

def expireRetiring (now : ℕ) : MigrationState :=
  match s.retiring with
  | some (_, started) =>
    if s.policy.retirementGrace ≤ now - started then { s with retiring := none } else s
  | none => s

def expireOldMigrations (now : ℕ) : MigrationState :=
  { s with recentMigrations := s.recentMigrations.dropWhile fun t => t < cutoff now minute }

def observeInbound (random : Option PathChallenge) (source : SocketAddr) (now : ℕ) :
    Except MigrationError MigrationDecision × MigrationState :=
  let s := s.expireRetiring now
  if source = s.active then (.ok .active, s)
  else if s.challenging.any fun c => c.path = source then (.ok .stillChallenging, s)
  else if s.retiring.any fun r => r.1 = source then (.ok .active, s)
  else
    let s := s.expireOldMigrations now
    if s.policy.maxMigrationsPerMin.toNat ≤ s.recentMigrations.length then
      (.error (.rateLimit s.policy.maxMigrationsPerMin), s)
    else
      -- The oldest challenge goes before the generator is asked, and is not put back if it fails.
      let s := { s with
        challenging := if maxSimultaneousChallenges ≤ s.challenging.length then s.challenging.tail
          else s.challenging }
      match random with
      | none => (.error .csprng, s)
      | some challenge =>
        (.ok (.newChallenge source challenge),
          { s with challenging := s.challenging ++ [⟨source, challenge, now⟩] })

def answers (source : SocketAddr) (response : PathResponse) (c : Outstanding) : Bool :=
  c.path = source && response.matches c.challenge

def observeResponse (source : SocketAddr) (response : PathResponse) (now : ℕ) :
    Except MigrationError MigrationDecision × MigrationState :=
  let s := s.expireOldMigrations now
  let s := { s with
    challenging := s.challenging.filter fun c => cutoff now s.policy.validationTimeout ≤ c.issued }
  match s.challenging.find? (answers source response) with
  | none => (.error .unmatchedResponse, s)
  | some c =>
    (.ok (.migrated c.path s.active),
      { s with
        active := c.path
        challenging := s.challenging.eraseP (answers source response)
        recentMigrations := s.recentMigrations ++ [now]
        retiring := some (s.active, now) })

end MigrationState

inductive MigrationCall
  | inbound (random : Option PathChallenge) (source : SocketAddr) (now : ℕ)
  | response (source : SocketAddr) (response : PathResponse) (now : ℕ)
  | finalizeRetirement

def MigrationCall.now : MigrationCall → Option ℕ
  | .inbound _ _ now => some now
  | .response _ _ now => some now
  | .finalizeRetirement => none

def MigrationState.step (s : MigrationState) : MigrationCall → MigrationState
  | .inbound random source now => (s.observeInbound random source now).2
  | .response source response now => (s.observeResponse source response now).2
  | .finalizeRetirement => s.finalizeRetirement

end Mirage.Migration
