import Mathlib.Data.Finset.Card
import Mirage.Discovery.ReplaySet
import Mirage.Discovery.Wire
import Mirage.Lib.Capped

/-!
# What a token is shown of the fleet

`CohortState` of `crates/bridge/src/main.rs`. The clock, the walk over the table and the random byte
are arguments. `usize` is a 64-bit word and wraps around, as it does in a release build; a panic is
an answer of its own.
-/

namespace Mirage.Bridge

open Maps Capped Words Discovery

structure PerTokenReveal where
  seen : Finset Bytes32
  lastSeen : ℕ

structure CohortState where
  known : List Announcement
  perToken : AList fun _ : TokenId => PerTokenReveal
  revealCap : UInt8
  revealJitter : UInt8
  rotation : ℕ

def cohortPerTokenTableCap : ℕ := 65536

def cohortStatusOk : UInt8 := 0

def cohortStatusExhausted : UInt8 := 1

def cohortStatusEmpty : UInt8 := 2

structure CohortCall where
  tokenId : Option TokenId
  maxN : UInt8
  now : ℕ
  /-- `none` if the random source fails. -/
  random : Option UInt8
  walk : Walk TokenId PerTokenReveal

namespace CohortState

/-- `none` is the division by `reveal_jitter + 1 = 0`, which is an overflow in a debug build. -/
def jitter (revealJitter : UInt8) (random : Option UInt8) : Option UInt8 :=
  if revealJitter = 0 then some 0
  else if revealJitter + 1 = 0 then none else some (random.getD 0 % (revealJitter + 1))

/-- One turn of the loop. Once there are enough, the rest of the turns do nothing. -/
def pick (known : List Announcement) (cursor most : ℕ) (acc : Finset Bytes32 × List Announcement)
    (i : ℕ) : Finset Bytes32 × List Announcement :=
  match known[(cursor + i) % 2 ^ 64 % known.length]? with
  | none => acc
  | some a =>
    if most ≤ acc.2.length ∨ a.bridgeEd25519Pk ∈ acc.1 then acc
    else (insert a.bridgeEd25519Pk acc.1, acc.2 ++ [a])

/-- The announcements and the status, or `none` after a panic. -/
def pickForToken (s : CohortState) (c : CohortCall) :
    Option (List Announcement × UInt8) × CohortState :=
  if s.known = [] then (some ([], cohortStatusEmpty), s)
  else match c.tokenId with
    | none => (some ([], cohortStatusExhausted), s)
    | some token =>
      let per := makeRoom cohortPerTokenTableCap PerTokenReveal.lastSeen c.walk token s.perToken
      let seen := ((per.lookup token).map PerTokenReveal.seen).getD ∅
      let touched := { s with perToken := per.insert token ⟨seen, c.now⟩ }
      if s.revealCap.toNat ≤ seen.card then (some ([], cohortStatusExhausted), touched)
      else match jitter s.revealJitter c.random with
        | none => (none, touched)
        | some jitter =>
          let requested := max (c.maxN.toNat - jitter.toNat) 1
          let most := min requested (s.revealCap.toNat - seen.card)
          let (seen, out) :=
            (List.range s.known.length).foldl (pick s.known s.rotation most) (seen, [])
          (some (out, if out = [] then cohortStatusExhausted else cohortStatusOk),
            { s with
              perToken := per.insert token ⟨seen, c.now⟩, rotation := (s.rotation + 1) % 2 ^ 64 })

end CohortState

structure Disclosure where
  cohort : CohortState
  revealed : List (TokenId × Bytes32)

namespace Disclosure

def start (known : List Announcement) (revealCap revealJitter : UInt8) : Disclosure :=
  ⟨⟨known, ∅, revealCap, revealJitter, 0⟩, []⟩

def step (d : Disclosure) (c : CohortCall) : Disclosure :=
  let (answer, cohort) := d.cohort.pickForToken c
  ⟨cohort, d.revealed ++ match c.tokenId, answer with
    | some token, some (out, _) => out.map fun a => (token, a.bridgeEd25519Pk)
    | _, _ => []⟩

end Disclosure

end Mirage.Bridge
