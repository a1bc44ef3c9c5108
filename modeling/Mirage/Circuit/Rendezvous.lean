import Mirage.Circuit.Bridge

/-!
# Introduction and rendezvous points

`crates/circuit/src/rendezvous.rs`: who registered an introduction key, who parked a cookie, and
which circuits are joined, over all sessions of one bridge. Ed25519 is a parameter. A walk over a
map goes in the order of its entries.
-/

namespace Mirage.Circuits

open Words Maps

structure Ed25519 where
  validKey : Bytes32 → Bool
  verifyStrict : Bytes32 → Bytes → Bytes64 → Bool

def cookieLen : ℕ := 32

def establishIntroBodyLen : ℕ := 32 + 64

def rendezvousBodyLen : ℕ := cookieLen + 32

def establishIntroContext : Bytes := ascii "mirage-onion-establish-intro-v1"

/-- In seconds, as `introRegistrationTtl`. -/
def rendezvousCookieTtl : ℕ := 120

def introRegistrationTtl : ℕ := 30 * 60

def maxIntroRegistrations : ℕ := 512

def maxParkedCookies : ℕ := 4096

structure CircuitRef where
  session : UInt64
  circId : UInt32
  deriving DecidableEq

inductive RendezvousError
  | badLength (what : String) (want got : ℕ)
  | badSignature
  | badKey
  | circuitBusy (circId : UInt32)
  | introKeyTaken
  | cookieTaken
  | noSuchIntro
  | tableFull (what : String)
  deriving DecidableEq

structure EstablishIntroBody where
  introAuthPk : Bytes32
  signature : Bytes64

namespace EstablishIntroBody

def signingInput (circId : UInt32) (introAuthPk : Bytes32) : Bytes :=
  establishIntroContext ++ beBytes 4 circId.toNat ++ introAuthPk.toList

def decode (b : Bytes) : Except RendezvousError EstablishIntroBody :=
  if b.length ≠ establishIntroBodyLen then
    .error (.badLength "establish-intro" establishIntroBodyLen b.length)
  else .ok ⟨vec 32 b, vec 64 (b.drop 32)⟩

def verify (S : Ed25519) (body : EstablishIntroBody) (circId : UInt32) :
    Except RendezvousError Unit :=
  if !S.validKey body.introAuthPk then .error .badKey
  else if
      !S.verifyStrict body.introAuthPk (signingInput circId body.introAuthPk) body.signature then
    .error .badSignature
  else .ok ()

end EstablishIntroBody

structure RendezvousBody where
  cookie : Bytes32
  serviceEphX25519Pk : Bytes32

def RendezvousBody.decode (b : Bytes) : Except RendezvousError RendezvousBody :=
  if b.length ≠ rendezvousBodyLen then .error (.badLength "rendezvous" rendezvousBodyLen b.length)
  else .ok ⟨vec 32 b, vec 32 (b.drop cookieLen)⟩

inductive RendezvousAction
  | ack (circ : CircuitRef) (cmd : UInt8)
  | forwardIntroduce (toCirc : CircuitRef) (body : Bytes)
  | join (clientCirc serviceCirc : CircuitRef) (serviceEphX25519Pk : Bytes32)
  | expire (circ : CircuitRef)

structure Parked where
  circ : CircuitRef
  since : Instant

inductive Role
  | intro (pk : Bytes32)
  | cookie (cookie : Bytes32)
  | joined
  deriving DecidableEq

structure RendezvousState where
  intros : AList fun _ : Bytes32 => Parked
  cookies : AList fun _ : Bytes32 => Parked
  roles : AList fun _ : CircuitRef => Role
  joined : AList fun _ : CircuitRef => CircuitRef

namespace RendezvousState

def new : RendezvousState := ⟨∅, ∅, ∅, ∅⟩

variable (S : Ed25519) (rv : RendezvousState)

def partner (circ : CircuitRef) : Option CircuitRef := rv.joined.lookup circ

def fresh (ttl : ℕ) (now : Instant) (p : Parked) : Bool := now - p.since < ttl

def establishIntro (circ : CircuitRef) (body : Bytes) (now : Instant) :
    Except RendezvousError RendezvousAction × RendezvousState :=
  match EstablishIntroBody.decode body with
  | .error e => (.error e, rv)
  | .ok parsed =>
    match parsed.verify S circ.circId with
    | .error e => (.error e, rv)
    | .ok () =>
      if (rv.roles.lookup circ).isSome then (.error (.circuitBusy circ.circId), rv)
      else if (rv.intros.lookup parsed.introAuthPk).any fun existing =>
          existing.circ ≠ circ && fresh introRegistrationTtl now existing then
        (.error .introKeyTaken, rv)
      else if maxIntroRegistrations ≤ size rv.intros then
        (.error (.tableFull "introduction"), rv)
      else
        (.ok (.ack circ cmdEstablishIntroOk),
          { rv with
            intros := rv.intros.insert parsed.introAuthPk ⟨circ, now⟩
            roles := rv.roles.insert circ (.intro parsed.introAuthPk) })

def establishRendezvous (circ : CircuitRef) (cookieBytes : Bytes) (now : Instant) :
    Except RendezvousError RendezvousAction × RendezvousState :=
  if cookieBytes.length ≠ cookieLen then
    (.error (.badLength "rendezvous cookie" cookieLen cookieBytes.length), rv)
  else if (rv.roles.lookup circ).isSome then (.error (.circuitBusy circ.circId), rv)
  else
    let cookie := vec 32 cookieBytes
    if (rv.cookies.lookup cookie).isSome then (.error .cookieTaken, rv)
    else if maxParkedCookies ≤ size rv.cookies then (.error (.tableFull "rendezvous"), rv)
    else
      (.ok (.ack circ cmdRendezvousOk),
        { rv with
          cookies := rv.cookies.insert cookie ⟨circ, now⟩
          roles := rv.roles.insert circ (.cookie cookie) })

def introduce (introAuthPk : Bytes32) (body : Bytes) (now : Instant) :
    Except RendezvousError RendezvousAction :=
  match (rv.intros.lookup introAuthPk).filter (fresh introRegistrationTtl now) with
  | none => .error .noSuchIntro
  | some reg => .ok (.forwardIntroduce reg.circ body)

def rendezvous (serviceCirc : CircuitRef) (body : Bytes) (now : Instant) :
    Except RendezvousError RendezvousAction × RendezvousState :=
  match RendezvousBody.decode body with
  | .error e => (.error e, rv)
  | .ok parsed =>
    if (rv.roles.lookup serviceCirc).isSome then (.error (.circuitBusy serviceCirc.circId), rv)
    else match (rv.cookies.lookup parsed.cookie).filter (fresh rendezvousCookieTtl now) with
      | none => (.error .cookieTaken, rv)
      | some parked =>
        (.ok (.join parked.circ serviceCirc parsed.serviceEphX25519Pk),
          { rv with
            cookies := rv.cookies.erase parsed.cookie
            roles := (rv.roles.insert parked.circ .joined).insert serviceCirc .joined
            joined := (rv.joined.insert parked.circ serviceCirc).insert serviceCirc parked.circ })

def stale (ttl : ℕ) (now : Instant) (m : AList fun _ : Bytes32 => Parked) : List CircuitRef :=
  (m.entries.filter fun s => !fresh ttl now s.2).map fun s => s.2.circ

def tick (now : Instant) : List RendezvousAction × RendezvousState :=
  let out := stale rendezvousCookieTtl now rv.cookies ++ stale introRegistrationTtl now rv.intros
  (out.map .expire,
    { rv with
      cookies := retain (fresh rendezvousCookieTtl now) rv.cookies
      intros := retain (fresh introRegistrationTtl now) rv.intros
      roles := out.foldl (fun roles circ => roles.erase circ) rv.roles })

/-- Removes the entry under a key if it is the circuit's. -/
def eraseOwn (circ : CircuitRef) (m : AList fun _ : Bytes32 => Parked)
    (key : Bytes32) : AList fun _ : Bytes32 => Parked :=
  if (m.lookup key).any fun p => p.circ = circ then m.erase key else m

def forget (circ : CircuitRef) : Option CircuitRef × RendezvousState :=
  let rest := { rv with roles := rv.roles.erase circ }
  match rv.roles.lookup circ with
  | some (.intro pk) => (none, { rest with intros := eraseOwn circ rv.intros pk })
  | some (.cookie c) => (none, { rest with cookies := eraseOwn circ rv.cookies c })
  | some .joined =>
    match rv.joined.lookup circ with
    | none => (none, { rest with joined := rv.joined.erase circ })
    | some p =>
      (some p,
        { rest with
          joined := (rv.joined.erase circ).erase p
          roles := (rv.roles.erase circ).erase p })
  | none => (none, rest)

end RendezvousState

inductive RendezvousCall
  | establishIntro (circ : CircuitRef) (body : Bytes) (now : Instant)
  | establishRendezvous (circ : CircuitRef) (cookieBytes : Bytes) (now : Instant)
  | introduce (introAuthPk : Bytes32) (body : Bytes) (now : Instant)
  | rendezvous (serviceCirc : CircuitRef) (body : Bytes) (now : Instant)
  | tick (now : Instant)
  | forget (circ : CircuitRef)

def RendezvousCall.circ : RendezvousCall → Option CircuitRef
  | .establishIntro circ _ _ => some circ
  | .establishRendezvous circ _ _ => some circ
  | .rendezvous circ _ _ => some circ
  | _ => none

def RendezvousState.step (S : Ed25519) (rv : RendezvousState) : RendezvousCall → RendezvousState
  | .establishIntro circ body now => (rv.establishIntro S circ body now).2
  | .establishRendezvous circ cookieBytes now => (rv.establishRendezvous circ cookieBytes now).2
  | .introduce _ _ _ => rv
  | .rendezvous serviceCirc body now => (rv.rendezvous serviceCirc body now).2
  | .tick now => (rv.tick now).2
  | .forget circ => (rv.forget circ).2

end Mirage.Circuits
