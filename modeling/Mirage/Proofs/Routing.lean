import Mirage.Bridge.Router
import Mirage.Proofs.RendezvousRoles

/-!
# Calls to the router

Whatever the sessions do with the router, its tables get calls (`step_state`). A `RENDEZVOUS` is
committed before it is delivered.
-/

namespace Mirage.Bridge

open Circuits Words Maps RendezvousState RendezvousBody
open List hiding Vector

def RouterCall.calls : RouterCall → List RendezvousCall
  | .forgetSession handle circIds => circIds.map fun c => .forget ⟨handle, c⟩
  | .establishIntro circ body now => [.establishIntro circ body now]
  | .establishRendezvous circ cookie now => [.establishRendezvous circ cookie now]
  | .rendezvous circ body now => [.rendezvous circ body now]
  | .tick now => [.tick now]
  | _ => []

def RouterCall.circ : RouterCall → Option CircuitRef
  | .establishIntro circ _ _ => some circ
  | .establishRendezvous circ _ _ => some circ
  | .rendezvous circ _ _ => some circ
  | _ => none

lemma RouterCall.session_of_circ {call : RouterCall} {x : CircuitRef} (h : call.circ = some x) :
    call.session = some x.session := by
  cases call with
  | establishIntro | establishRendezvous | rendezvous =>
    cases h
    rfl
  | registerSession | forgetSession | introduce | relayToPartner | tick | receive => cases h

def Mailbox.accepts (m : Mailbox) : Bool := m.receiving && m.queue.length < deliveryQueue

lemma Mailbox.trySend_eq (m : Mailbox) (d : Delivery) :
    (m.accepts = true ∧ m.trySend d = .ok { m with queue := m.queue ++ [d] }) ∨
      m.accepts = false ∧ ∃ e, m.trySend d = .error e := by
  unfold accepts trySend
  by_cases hr : m.receiving = true
  · by_cases hf : deliveryQueue ≤ m.queue.length
    · exact .inr ⟨by simp [hr, hf], _, by rw [if_neg (by simp [hr]), if_pos hf]⟩
    · refine .inl ⟨by simp [hr, Nat.not_le.1 hf], ?_⟩
      rw [if_neg (by simp [hr]), if_neg hf]
  · exact .inr ⟨by simp [hr], _, if_pos (by simpa using hr)⟩

namespace RendezvousRouter

variable {S : Ed25519} {r : RendezvousRouter} {x circ : CircuitRef} {body : Bytes} {now : Instant}

/-- One delivery was sent to the session of the circuit. -/
def Queued (r : RendezvousRouter) (circ : CircuitRef) (d : Delivery) (r' : RendezvousRouter) :
    Prop :=
  ∃ m, r.sessions.lookup circ.session = some m ∧
    r'.sessions = r.sessions.insert circ.session { m with queue := m.queue ++ [d] }

lemma deliver_state (cmd : UInt8) : (r.deliver circ cmd body).2.state = r.state := by
  unfold deliver
  split
  · rfl
  · split <;> rfl

def Reaches (r : RendezvousRouter) (circ : CircuitRef) : Bool :=
  (r.sessions.lookup circ.session).any Mailbox.accepts

variable (r)

lemma deliver_cases (circ : CircuitRef) (cmd : UInt8) (body : Bytes) :
    (r.Reaches circ = false ∧ ∃ e, r.deliver circ cmd body = (.error e, r)) ∨
      r.Reaches circ = true ∧ ∃ r', r.deliver circ cmd body = (.ok circ, r') ∧
        r.Queued circ ⟨circ.circId, cmd, body⟩ r' := by
  unfold deliver Reaches
  cases hm : r.sessions.lookup circ.session with
  | none => exact .inl ⟨rfl, _, rfl⟩
  | some m =>
    rcases m.trySend_eq ⟨circ.circId, cmd, body⟩ with ⟨ha, hs⟩ | ⟨ha, e, hs⟩
    · simp only [hs]
      exact .inr ⟨ha, _, rfl, m, hm, rfl⟩
    · simp only [hs]
      exact .inl ⟨ha, e, rfl⟩

/-- If the cookie in the body is parked and has not expired, the session of its client takes a
delivery. -/
def Awaited (r : RendezvousRouter) (service : CircuitRef) (body : Bytes) (now : Instant) : Prop :=
  match decode body with
  | .error _ => True
  | .ok parsed => r.state.roles.lookup service = none →
    ∀ p ∈ r.state.cookies.lookup parsed.cookie,
      RendezvousState.fresh rendezvousCookieTtl now p = true → r.Reaches p.circ = true

instance (r : RendezvousRouter) (service : CircuitRef) (body : Bytes) (now : Instant) :
    Decidable (r.Awaited service body now) := by
  unfold Awaited
  split <;> infer_instance

/-- The call fails and changes nothing, or one delivery is queued. -/
theorem introduce_cases (pk : Bytes32) (body : Bytes) (now : Instant) :
    (∃ e, r.introduce pk body now = (.error e, r)) ∨
      ∃ p r', r.state.intros.lookup pk = some p ∧ r.introduce pk body now = (.ok p.circ, r') ∧
        r.Queued p.circ ⟨p.circ.circId, cmdIntroduce, body⟩ r' := by
  unfold introduce RendezvousState.introduce
  cases hp : (r.state.intros.lookup pk).filter (fresh introRegistrationTtl now) with
  | none => exact .inl ⟨_, rfl⟩
  | some p =>
    have hl := (Option.filter_eq_some_iff.1 hp).1
    rcases r.deliver_cases p.circ cmdIntroduce body with ⟨-, he⟩ | ⟨-, r', hok, hq⟩
    · exact .inl he
    · exact .inr ⟨p, r', hl, hok, hq⟩

theorem rendezvous_cases (circ : CircuitRef) (body : Bytes) (now : Instant) :
    (r.Awaited circ body now ∧ ∃ e, r.rendezvous circ body now = (.error e, r)) ∨
      ∃ parsed p rv, decode body = .ok parsed ∧
        r.state.cookies.lookup parsed.cookie = some p ∧ rv.cookies.lookup parsed.cookie = none ∧
        (r.Awaited circ body now ↔ r.Reaches p.circ = true) ∧
        r.rendezvous circ body now = deliver { r with state := rv } p.circ cmdRendezvous
          parsed.serviceEphX25519Pk.toList := by
  unfold rendezvous RendezvousState.rendezvous Awaited
  cases hb : decode body with
  | error e => exact .inl ⟨trivial, _, rfl⟩
  | ok parsed =>
    dsimp only
    by_cases hr : (r.state.roles.lookup circ).isSome = true
    · rw [if_pos hr]
      exact .inl ⟨fun hn => by simp [hn] at hr, _, rfl⟩
    rw [if_neg hr]
    have hn : r.state.roles.lookup circ = none := by simpa using hr
    cases hp : (r.state.cookies.lookup parsed.cookie).filter (fresh rendezvousCookieTtl now) with
    | none =>
      refine .inl ⟨fun _ p hl hf => ?_, _, rfl⟩
      exact absurd hf (by simpa using Option.filter_eq_none_iff.1 hp p hl)
    | some p =>
      obtain ⟨hl, hf⟩ := Option.filter_eq_some_iff.1 hp
      refine .inr ⟨parsed, p, _, rfl, hl, AList.lookup_erase _ _, ?_, rfl⟩
      simp [hn, hl, hf]

variable {r}

/-- A call that fails leaves the router as it was, and one that does not has sent one delivery. -/
theorem routing_all_or_nothing (r : RendezvousRouter) :
    (∀ pk body now, match r.introduce pk body now with
      | (.error _, r') => r' = r
      | (.ok circ, r') => (r.state.intros.lookup pk).map Parked.circ = some circ ∧
          r.Queued circ ⟨circ.circId, cmdIntroduce, body⟩ r') ∧
    ∀ service body now, (match r.rendezvous service body now with
      | (.error _, r') => r' = r
      | (.ok client, r') => ∃ parsed, decode body = .ok parsed ∧
          (r.state.cookies.lookup parsed.cookie).map Parked.circ = some client ∧
          r.Queued client ⟨client.circId, cmdRendezvous, parsed.serviceEphX25519Pk.toList⟩ r') ↔
      r.Awaited service body now := by
  refine ⟨fun pk body now => ?_, fun service body now => ?_⟩
  · rcases r.introduce_cases pk body now with ⟨e, he⟩ | ⟨p, r', hp, hok, hq⟩
    · rw [he]
    · rw [hok]
      exact ⟨by rw [hp]; rfl, hq⟩
  rcases r.rendezvous_cases service body now with
    ⟨hw, e, he⟩ | ⟨parsed, p, rv, hb, hp, hg, hw, heq⟩
  · rw [he]
    exact iff_of_true rfl hw
  rw [hw, heq]
  rcases deliver_cases { r with state := rv } p.circ cmdRendezvous
    parsed.serviceEphX25519Pk.toList with ⟨hr, e, he⟩ | ⟨hr, r', hok, hq⟩
  · rw [he]
    -- The cookie was parked and is gone, so the router is not what it was.
    refine iff_of_false (fun hsm => ?_) (fun h => ?_)
    · have hs : rv = r.state := congrArg RendezvousRouter.state hsm
      rw [hs, hp] at hg
      cases hg
    · exact absurd (hr.symm.trans h) (by decide)
  · rw [hok]
    exact iff_of_true ⟨parsed, hb, by rw [hp]; rfl, hq⟩ hr

def afterIntroductions (n : ℕ) : RendezvousRouter :=
  Runs.run (step ⟨fun _ => true, fun _ _ _ => true⟩) new
    ([.registerSession, .registerSession,
      .establishIntro ⟨0, 2⟩ (replicate establishIntroBodyLen 0) 0,
      .establishRendezvous ⟨0, 1⟩ (replicate cookieLen 0) 0] ++
    replicate n (.introduce (.replicate 32 0) [] 0))

theorem routing_all_or_nothing_delivered :
    ∃ r', (afterIntroductions 0).rendezvous ⟨1, 1⟩ (replicate rendezvousBodyLen 0) 0 =
        (.ok ⟨0, 1⟩, r') ∧
      (afterIntroductions 0).Queued ⟨0, 1⟩ ⟨1, cmdRendezvous, replicate 32 0⟩ r' := by
  have hok : ((afterIntroductions 0).rendezvous ⟨1, 1⟩
      (replicate rendezvousBodyLen 0) 0).1 = .ok ⟨0, 1⟩ := by decide +kernel
  have h := ((routing_all_or_nothing (afterIntroductions 0)).2 ⟨1, 1⟩
    (replicate rendezvousBodyLen 0) 0).2 (by decide +kernel)
  generalize (afterIntroductions 0).rendezvous ⟨1, 1⟩ _ 0 = reply at hok h ⊢
  obtain ⟨res, r'⟩ := reply
  obtain rfl : res = .ok ⟨0, 1⟩ := hok
  obtain ⟨parsed, hb, -, hq⟩ := h
  obtain rfl : parsed = ⟨vec 32 (replicate 64 0), vec 32 (replicate 32 0)⟩ :=
    (Except.ok.inj hb).symm
  exact ⟨r', rfl, hq⟩

/-- The client's session is behind: the call fails, and the two circuits are joined. -/
theorem failed_rendezvous_joins :
    let r := afterIntroductions deliveryQueue
    let p := r.rendezvous ⟨1, 1⟩ (replicate rendezvousBodyLen 0) 0
    p.1 = .error .backlogged ∧ r.state.partner ⟨1, 1⟩ = none ∧
      p.2.state.partner ⟨1, 1⟩ = some ⟨0, 1⟩ ∧ p.2.state.partner ⟨0, 1⟩ = some ⟨1, 1⟩ ∧
      (r.state.cookies.lookup (.replicate 32 0)).isSome ∧
      (p.2.state.cookies.lookup (.replicate 32 0)).isNone := by
  decide +kernel

lemma forgetCircuits_eq (handle : UInt64) : ∀ circIds rv,
      (forgetCircuits handle circIds rv).2 =
        Runs.run (RendezvousState.step S) rv (circIds.map fun c => .forget ⟨handle, c⟩)
  | [], _ => rfl
  | _ :: circIds, _ => forgetCircuits_eq handle circIds _

lemma introduce_state (pk : Bytes32) : (r.introduce pk body now).2.state = r.state := by
  unfold introduce
  split
  · rfl
  · exact deliver_state _
  · rfl

lemma rendezvous_state :
    (r.rendezvous circ body now).2.state = (r.state.rendezvous circ body now).2 := by
  unfold rendezvous
  split
  · rename_i heq
    rw [heq]
  · rename_i heq
    rw [heq, deliver_state]
  · rename_i heq
    rw [heq]

lemma relayToPartner_state (cmd : UInt8) : (r.relayToPartner circ cmd body).2.state = r.state := by
  unfold relayToPartner
  split
  · rfl
  · exact deliver_state _

lemma receive_state (handle : UInt64) : (r.receive handle).2.state = r.state := by
  unfold receive
  split <;> rfl

lemma step_state (call : RouterCall) :
    (r.step S call).state = Runs.run (RendezvousState.step S) r.state call.calls := by
  cases call with
  | registerSession | establishIntro | establishRendezvous | tick => rfl
  | forgetSession handle circIds => exact forgetCircuits_eq handle circIds r.state
  | introduce pk body now => exact introduce_state pk
  | rendezvous circ body now => exact rendezvous_state
  | relayToPartner source cmd body => exact relayToPartner_state cmd
  | receive handle => exact receive_state handle

lemma mentions_step {call : RouterCall} (h : (r.step S call).state.Mentions x) :
    r.state.Mentions x ∨ call.circ = some x := by
  rw [step_state] at h
  refine (RendezvousState.mentions_run _ _ h).imp_right ?_
  rintro ⟨c, hc, hx⟩
  cases call with
  | establishIntro | establishRendezvous | rendezvous | tick =>
    obtain rfl := mem_singleton.1 hc
    exact hx
  | forgetSession handle circIds =>
    obtain ⟨i, -, rfl⟩ := mem_map.1 hc
    cases hx
  | registerSession | introduce | relayToPartner | receive => cases hc

end RendezvousRouter

end Mirage.Bridge
