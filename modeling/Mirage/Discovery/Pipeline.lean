import Mirage.Discovery.Rendezvous

/-!
# Fetching announcements

`DiscoveryRouter::fetch` of `crates/discovery/src/router.rs` and `ClientSubscriber::fetch_for_epoch`
of `pipeline.rs`: what the channels answer is joined, and every blob is verified. A channel can be
too late, fail, or return any blobs.
-/

namespace Mirage.Discovery

open Words
open Onion (Ed25519)

inductive ChannelError
  | transport (reason : String)
  | refused (reason : String)
  | timeout (ms : ℕ)
  | unavailable (reason : String)

/-- `fetch` is what the channel answers within the deadline, if it does. -/
structure DiscoveryChannel where
  name : String
  fetch : Vector UInt8 20 → Option (Except ChannelError (List Bytes))

structure RouterConfig where
  fetchTimeoutMs : ℕ := 5000
  fetchMaxResults : ℕ := 256

structure DiscoveryRouter where
  channels : List DiscoveryChannel
  config : RouterConfig

structure FetchSummary where
  blobs : List Bytes
  channelsWithHits : List String
  channelsFailed : List String

/-- The loop over a batch, and whether any blob was added. Those seen are those taken. -/
def addBatch (maxResults : ℕ) : List Bytes → List Bytes → List Bytes × Bool
  | blobs, [] => (blobs, false)
  | blobs, blob :: batch =>
    if maxResults ≤ blobs.length then (blobs, false)
    else if blob ∈ blobs then addBatch maxResults blobs batch
    else ((addBatch maxResults (blobs ++ [blob]) batch).1, true)

namespace DiscoveryRouter

variable (router : DiscoveryRouter)

def join (ih : Vector UInt8 20) (out : FetchSummary) (ch : DiscoveryChannel) : FetchSummary :=
  match (ch.fetch ih).getD (.error (.timeout router.config.fetchTimeoutMs)) with
  | .ok batch =>
    let (blobs, addedAny) := addBatch router.config.fetchMaxResults out.blobs batch
    { out with
      blobs
      channelsWithHits := if addedAny then out.channelsWithHits ++ [ch.name]
        else out.channelsWithHits }
  | .error _ => { out with channelsFailed := out.channelsFailed ++ [ch.name] }

def fetch (ih : Vector UInt8 20) : FetchSummary :=
  router.channels.foldl (router.join ih) ⟨[], [], []⟩

end DiscoveryRouter

inductive Verified
  | announcement (ann : Announcement)
  | revocation (rev : Revocation)

structure DiscoveryFetch where
  announcements : List Announcement
  revocations : List Revocation
  blobsFetched : ℕ
  blobsRejected : ℕ
  channelsWithHits : List String
  channelsFailed : List String

/-- A clock of 0 is no clock. -/
def announcementInTime (ann : Announcement) (nowUnix : UInt64) : Except DiscoveryError Unit :=
  if nowUnix ≠ 0 then
    if nowUnix < ann.issuedAt then .error (.time "announcement from the future")
    else if ann.expiresAt ≤ nowUnix then .error (.time "announcement expired")
    else .ok ()
  else .ok ()

def revocationInTime (rev : Revocation) (nowUnix : UInt64) : Except DiscoveryError Unit :=
  if nowUnix ≠ 0 ∧ nowUnix < rev.issuedAt then .error (.time "revocation from the future")
  else .ok ()

namespace ClientSubscriber

variable (S : RendezvousSuite) (E : Ed25519) (c : ClientSubscriber)

def verifyAnnouncement (plaintext : Bytes) (nowUnix : UInt64) : Except DiscoveryError Verified :=
  match Announcement.decode plaintext with
  | .error e => .error e
  | .ok ann =>
    match ann.verify E c.operatorEd25519Pk, announcementInTime ann nowUnix with
    | .error e, _ | .ok (), .error e => .error e
    | .ok (), .ok () => .ok (.announcement ann)

def verifyRevocation (plaintext : Bytes) (nowUnix : UInt64) : Except DiscoveryError Verified :=
  match Revocation.decode plaintext with
  | .error e => .error e
  | .ok rev =>
    match rev.verify E c.operatorEd25519Pk, revocationInTime rev nowUnix with
    | .error e, _ | .ok (), .error e => .error e
    | .ok (), .ok () => .ok (.revocation rev)

def verifyOne (blob : Bytes) (epoch : ℕ) (nowUnix : UInt64) : Except DiscoveryError Verified :=
  match c.openAt S epoch blob with
  | .error e => .error e
  | .ok plaintext =>
    if plaintext.length < 4 then .error (.wire "plaintext too short for header")
    else if plaintext.getD 2 0 = docTypeAnnouncement then c.verifyAnnouncement E plaintext nowUnix
    else if plaintext.getD 2 0 = docTypeRevocation then c.verifyRevocation E plaintext nowUnix
    else .error (.wire "unknown doc_type in sealed plaintext")

def accept (epoch : ℕ) (nowUnix : UInt64) (out : DiscoveryFetch) (blob : Bytes) : DiscoveryFetch :=
  match c.verifyOne S E blob epoch nowUnix with
  | .ok (.announcement ann) => { out with announcements := out.announcements ++ [ann] }
  | .ok (.revocation rev) => { out with revocations := out.revocations ++ [rev] }
  | .error _ => { out with blobsRejected := out.blobsRejected + 1 }

def fetchForEpoch (router : DiscoveryRouter) (epoch : ℕ) (nowUnix : UInt64) : DiscoveryFetch :=
  let summary := router.fetch (c.infoHashAt S epoch)
  summary.blobs.foldl (c.accept S E epoch nowUnix)
    ⟨[], [], summary.blobs.length, 0, summary.channelsWithHits, summary.channelsFailed⟩

end ClientSubscriber

end Mirage.Discovery
