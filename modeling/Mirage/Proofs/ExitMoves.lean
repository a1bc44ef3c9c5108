import Mirage.Proofs.OnionReverse
import Mirage.Proofs.SessionSteps

/-!
# What a step does to the streams of the exit

A step is one of the cases of `Moved`, nearly always `Quiet`.
-/

namespace Mirage.Bridge

open TcpStreamDispatcher List

open Circuits Words Maps Runs Records BridgeCircuitState RelaySubCell BridgeCircuitExecutor

def dataSub (s : StreamId) (chunk : Bytes) : RelaySubCell := ⟨cmdData, DataBody.encode ⟨s, chunk⟩⟩

def endSub (s : StreamId) : RelaySubCell := ⟨cmdEnd, EndBody.encode ⟨s⟩⟩

def exitPayloads : StreamEvent → List Bytes
  | .data s bytes =>
    (chunks (max maxReverseRelayDataBytes 1) bytes).map fun chunk => (dataSub s chunk).bytes
  | .ended s => [(endSub s).bytes]

def told : StreamEvent → List StreamCommand
  | .data s bytes =>
    (chunks (max maxReverseRelayDataBytes 1) bytes).map fun chunk => .data ⟨s, chunk⟩
  | .ended s => [.stop ⟨s⟩]

variable {s : StreamId} {task : Task} {rest : List Task} {c : UInt32} {payload : Bytes}

lemma length_dataSub {bytes chunk : Bytes}
    (h : chunk ∈ chunks (max maxReverseRelayDataBytes 1) bytes) :
    (dataSub s chunk).body.length ≤ innerMax := by
  have hl := length_le_of_mem_chunks h
  have hm : max maxReverseRelayDataBytes 1 + 2 = innerMax := rfl
  simp only [dataSub, DataBody.encode, length_append, length_beBytes]
  omega

lemma length_endSub : (endSub s).body.length ≤ innerMax := by
  simp only [endSub, EndBody.encode, length_beBytes]
  decide

lemma encodeExitEventChunked_eq (e : StreamEvent) :
    encodeExitEventChunked e = .ok (exitPayloads e) := by
  cases e with
  | data s bytes =>
    exact mapM_eq_ok fun chunk hc => encode_eq (length_dataSub hc)
  | ended s => rfl

lemma length_exitPayloads {e : StreamEvent} {p : Bytes} (h : p ∈ exitPayloads e) :
    p.length ≤ 3 + innerMax := by
  cases e with
  | data s bytes =>
    obtain ⟨chunk, hc, rfl⟩ := mem_map.1 h
    rw [length_bytes]
    exact Nat.add_le_add_left (length_dataSub hc) 3
  | ended s =>
    obtain rfl := mem_singleton.1 h
    rw [length_bytes]
    exact Nat.add_le_add_left length_endSub 3

lemma streamCommand_dataSub {chunk : Bytes} (h : (dataSub s chunk).body.length ≤ innerMax) :
    streamCommand (dataSub s chunk).bytes = some (.data ⟨s, chunk⟩) := by
  have hc : (dataSub s chunk).command = cmdData := rfl
  have hb : DataBody.decode (dataSub s chunk).body = .ok ⟨s, chunk⟩ :=
    DataBody.decode_encode ⟨s, chunk⟩
  unfold streamCommand
  rw [decode_encode (hc ▸ by decide) (encode_eq h)]
  dsimp only
  rw [if_neg (hc ▸ by decide), if_pos hc, hb]
  rfl

lemma streamCommand_endSub : streamCommand (endSub s).bytes = some (.stop ⟨s⟩) := by
  have hc : (endSub s).command = cmdEnd := rfl
  have hb : EndBody.decode (endSub s).body = .ok ⟨s⟩ := EndBody.decode_encode ⟨s⟩
  unfold streamCommand
  rw [decode_encode (hc ▸ by decide) (encode_eq length_endSub)]
  dsimp only
  rw [if_neg (hc ▸ by decide), if_neg (hc ▸ by decide), if_pos hc, hb]
  rfl

lemma map_streamCommand (e : StreamEvent) :
    (exitPayloads e).map streamCommand = (told e).map some := by
  cases e with
  | data s bytes =>
    simp only [exitPayloads, told, map_map]
    exact map_congr_left fun chunk hc => streamCommand_dataSub (length_dataSub hc)
  | ended s => simp only [exitPayloads, told, map_cons, map_nil, streamCommand_endSub]

def Task.pending : Task → List Injection
  | .inject c u _ payloads => payloads.map (Injection.mk c u)
  | _ => []

namespace SessionTask

variable {A : Aead} {S : Ed25519} {t t' : SessionTask}

def pending (t : SessionTask) : List Injection := t.agenda.flatMap Task.pending

def exitCommand (t : SessionTask) : Option (UInt32 × StreamCommand) :=
  match t.agenda with
  | .act (.relayPayloadAtExit c payload) :: _ =>
    if c ∈ t.rvCircuits then none else (streamCommand payload).map (c, ·)
  | _ => none

/-- Nothing happens to the streams, but for routes that are dropped. -/
structure Quiet (t t' : SessionTask) : Prop where
  dispatcher : t'.executor.dispatcher = t.executor.dispatcher
  lives : t'.lives = t.lives
  openers : t'.openers = t.openers
  injected : t'.injected = t.injected
  pending : t'.pending = t.pending ∨ t'.result.isSome = true ∧ t'.pending = []
  streams : ∀ s, t'.streamToCirc.lookup s = t.streamToCirc.lookup s ∨
    t'.streamToCirc.lookup s = none ∧
      (t'.result = none → ∀ c, t.streamToCirc.lookup s = some c → ¬ t'.state.Alive c)

lemma pending_cons (h : t.agenda = task :: rest) :
    t.pending = task.pending ++ rest.flatMap Task.pending := by
  rw [pending, h, flatMap_cons]

lemma pending_acts (acts : List BridgeAction) :
    (acts.map Task.act ++ rest).flatMap Task.pending = rest.flatMap Task.pending := by
  have ha : (acts.map Task.act).flatMap Task.pending = [] := by
    simp [flatMap_eq_nil_iff, Task.pending]
  rw [flatMap_append, ha, nil_append]

lemma Quiet.refl : Quiet t t :=
  ⟨rfl, rfl, rfl, rfl, .inl rfl, fun _ => .inl rfl⟩

lemma Quiet.of_same {t₀ : SessionTask} (h : Quiet t₀ t')
    (hd : t₀.executor.dispatcher = t.executor.dispatcher) (hp : t₀.pending = t.pending)
    (hs : t₀.streamToCirc = t.streamToCirc) (hl : t₀.lives = t.lives)
    (ho : t₀.openers = t.openers) (hi : t₀.injected = t.injected) : Quiet t t' :=
  ⟨h.dispatcher.trans hd, h.lives.trans hl, h.openers.trans ho, h.injected.trans hi,
    hp ▸ h.pending, hs ▸ h.streams⟩

lemma Quiet.finish (result : Except DaemonError Unit) : Quiet t (t.finish result) :=
  ⟨rfl, rfl, rfl, rfl, .inr ⟨rfl, rfl⟩, fun _ => .inl rfl⟩

lemma Quiet.executeActions (bc : BridgeCircuitState) (acts : List BridgeAction) :
    Quiet t ({ t with state := bc }.executeActions acts) :=
  ⟨rfl, rfl, rfl, rfl, .inl (pending_acts acts), fun _ => .inl rfl⟩

lemma Quiet.record (reply : Reply) : Quiet t (t.record reply) := by
  obtain ⟨e | acts, bc⟩ := reply
  · exact ⟨rfl, rfl, rfl, rfl, .inr ⟨rfl, rfl⟩, fun _ => .inl rfl⟩
  · exact .executeActions bc acts

lemma lookup_purgeStreams_eq : (t.purgeStreams c).streamToCirc.lookup s = t.streamToCirc.lookup s ∨
      (t.purgeStreams c).streamToCirc.lookup s = none ∧ t.streamToCirc.lookup s = some c := by
  change (retain _ t.streamToCirc).lookup s = _ ∨ (retain _ t.streamToCirc).lookup s = none ∧ _
  rw [lookup_retain]
  cases t.streamToCirc.lookup s with
  | none => exact .inl rfl
  | some i =>
    by_cases hi : i = c
    · exact .inr ⟨by simp [hi], by rw [hi]⟩
    · exact .inl (by simp [hi])

lemma Quiet.of_purge (hd : t'.executor.dispatcher = t.executor.dispatcher)
    (hl : t'.lives = t.lives) (ho : t'.openers = t.openers) (hi : t'.injected = t.injected)
    (hp : t'.pending = t.pending ∨ t'.result.isSome = true ∧ t'.pending = [])
    (hs : t'.streamToCirc = (t.purgeStreams c).streamToCirc)
    (he : t'.result = none → ¬ t'.state.Alive c) : Quiet t t' := by
  refine ⟨hd, hl, ho, hi, hp, fun s => ?_⟩
  rw [hs]
  refine (lookup_purgeStreams_eq).imp_right fun h => ⟨h.1, fun hr i hlk => ?_⟩
  obtain rfl := Option.some.inj (h.2.symm.trans hlk)
  exact he hr

lemma Quiet.reapCircuit (now : Instant) : Quiet t (t.reapCircuit A c now) := by
  have hd : (t.reapCircuit A c now).executor.dispatcher = t.executor.dispatcher := by
    rw [reapCircuit_executor]
    exact (forgetPendingResponder_operates c).dispatcher
  unfold SessionTask.reapCircuit at hd ⊢
  split at hd
  · exact .of_purge hd rfl rfl rfl (.inr ⟨rfl, rfl⟩) rfl fun h => nomatch h
  rename_i cell hn
  obtain ⟨-, -, -, rfl⟩ := Cell.new_eq_ok.1 hn
  refine .of_purge hd rfl rfl rfl (.inl (pending_acts _)) rfl fun _ => ?_
  exact tombstone_not_alive

lemma Quiet.reapCircuitByOutId (out : UInt32) (now : Instant) :
    Quiet t (t.reapCircuitByOutId A out now) := by
  unfold SessionTask.reapCircuitByOutId inCircIdFor
  cases hid : t.state.outToIn.lookup out with
  | none =>
    dsimp only
    split
    · exact .finish _
    · exact .executeActions _ _
  | some i =>
    dsimp only
    split
    · exact .of_purge rfl rfl rfl rfl (.inr ⟨rfl, rfl⟩) rfl fun h => nomatch h
    rename_i cell hn
    obtain ⟨-, -, -, rfl⟩ := Cell.new_eq_ok.1 hn
    refine .of_purge rfl rfl rfl rfl (.inl (pending_acts _)) rfl fun _ => ?_
    rw [processInboundFromNext_destroy hid rfl]
    exact tombstone_not_alive

lemma Quiet.sendRendezvousSub (cmd : UInt8) (body : Bytes) (now : Instant) :
    Quiet t (t.sendRendezvousSub A c cmd body now) := by
  unfold SessionTask.sendRendezvousSub
  split
  · exact .refl
  · exact .executeActions _ _

lemma Quiet.of_rendezvous {router : Option RendezvousRouter} {circuits : List UInt32}
    (h : Quiet { t with rendezvous := router, rvCircuits := circuits } t') : Quiet t t' :=
  h.of_same rfl rfl rfl rfl rfl rfl

lemma Quiet.handleRendezvous (cmd : UInt8) (body : Bytes) (now : Instant) :
    Quiet t (t.handleRendezvous A S c cmd body now) := by
  unfold SessionTask.handleRendezvous
  split
  · exact .refl
  dsimp only
  split_ifs
  · split
    · exact .of_rendezvous (.sendRendezvousSub _ _ now)
    · exact .of_rendezvous .refl
  · split
    · exact .of_rendezvous (.sendRendezvousSub _ _ now)
    · exact .of_rendezvous .refl
  · exact .refl
  · exact .of_rendezvous .refl
  · split <;> exact .of_rendezvous .refl
  · exact .refl

lemma Quiet.of_executor {x : BridgeCircuitExecutor}
    (h : Quiet { t with executor := x } t') (hx : x.dispatcher = t.executor.dispatcher) :
    Quiet t t' :=
  h.of_same hx rfl rfl rfl rfl rfl

lemma trackStream_eq {sub : RelaySubCell} (h : decode payload = .ok sub) : t.trackStream c sub =
      { t with
        streamToCirc := match streamCommand payload with
          | some (.start b) => t.streamToCirc.insert b.streamId c
          | some (.stop b) => t.streamToCirc.erase b.streamId
          | _ => t.streamToCirc } := by
  unfold trackStream streamCommand
  rw [h]
  dsimp only
  split_ifs with hb he hd
  · cases BeginBody.decode sub.body with
    | error e | ok b => rfl
  · exact absurd (hd.symm.trans he) (by decide)
  · cases EndBody.decode sub.body with
    | error e | ok b => rfl
  · cases DataBody.decode sub.body with
    | error e | ok b => rfl
  · rfl

lemma exitPayload_error {o : Outcome} {e : StreamError}
    (h : t.executor.dispatcher.dispatch o.net payload = (.error e, t.executor.dispatcher)) :
    t.exitPayload A c payload o = t.reapCircuit A c o.now := by
  unfold exitPayload handleExitPayload
  rw [h]
  simp

lemma exitPayload_ok {o : Outcome} {d : TcpStreamDispatcher}
    (h : t.executor.dispatcher.dispatch o.net payload = (.ok (), d)) :
    t.exitPayload A c payload o =
      { t with
        executor := { t.executor with dispatcher := d }
        openers := if t.executor.dispatcher.upstreams.length < d.upstreams.length then
            t.openers ++ [⟨c, t.lives c⟩]
          else t.openers } := by
  unfold exitPayload handleExitPayload
  rw [h]

/-- What a step does to the streams of the exit. -/
inductive Moved (A : Aead) (t : SessionTask) : SessionEvent → SessionTask → Prop
  | quiet {e : SessionEvent} {t' : SessionTask} (h : Quiet t t') : Moved A t e t'
  | made {buf : Bytes} {now : Instant} {cell : Cell} {t' : SessionTask}
    (hidle : t.agenda = []) (hdec : Cell.decode buf = .ok cell) (hcmd : cell.command = cmdCreate)
    (hnew : t.state.circuits.lookup cell.circId = none)
    (h : Quiet
      { t with lives := Function.update t.lives cell.circId (t.lives cell.circId + 1) } t') :
    Moved A t (.arm (.cell buf now)) t'
  | unheard {now : Instant} {u : ℕ} {ev : StreamEvent} {events : List (ℕ × StreamEvent)}
    (hidle : t.agenda = []) (hev : t.executor.dispatcher.events = (u, ev) :: events)
    (hroute : t.streamToCirc.lookup ev.streamId = none) :
    Moved A t (.arm (.exitEvent now))
      { t with
        executor :=
          { t.executor with dispatcher := { t.executor.dispatcher with events := events } } }
  | heard {now : Instant} {u : ℕ} {ev : StreamEvent} {events : List (ℕ × StreamEvent)} {c : UInt32}
    (hidle : t.agenda = []) (hev : t.executor.dispatcher.events = (u, ev) :: events)
    (hroute : t.streamToCirc.lookup ev.streamId = some c) :
    Moved A t (.arm (.exitEvent now))
      { t with
        executor :=
          { t.executor with dispatcher := { t.executor.dispatcher with events := events } }
        agenda := [.inject c u now (exitPayloads ev)] }
  | injected {o : Outcome} {c : UInt32} {u : ℕ} {now : Instant} {p : Bytes} {ps : List Bytes}
    {rest : List Task} {acts : List BridgeAction} {bc : BridgeCircuitState}
    (hagenda : t.agenda = .inject c u now (p :: ps) :: rest)
    (hok : t.state.injectExitResponse A c p now = (.ok acts, bc)) :
    Moved A t (.next o)
      { t with
        state := bc
        injected := t.injected ++ [Injection.mk c u p]
        agenda := acts.map .act ++ .inject c u now ps :: rest }
  | dropped {o : Outcome} {c : UInt32} {u : ℕ} {now : Instant} {p : Bytes} {ps : List Bytes}
    {rest : List Task} {e : BridgeCircuitError} {bc : BridgeCircuitState}
    (hagenda : t.agenda = .inject c u now (p :: ps) :: rest)
    (herr : t.state.injectExitResponse A c p now = (.error e, bc)) :
    Moved A t (.next o) { t with state := bc, agenda := rest }
  | begun {o : Outcome} {c : UInt32} {b : BeginBody} {addr : IpAddr} {rest : List Task}
    (hcmd : t.exitCommand = some (c, .start b)) (hrest : t.pending = rest.flatMap Task.pending)
    (hfree : t.executor.dispatcher.streams.lookup b.streamId = none) :
    Moved A t (.next o)
      { t with
        agenda := rest
        executor :=
          { t.executor with
            dispatcher := t.executor.dispatcher.openUpstream b.streamId addr }
        openers := t.openers ++ [⟨c, t.lives c⟩]
        streamToCirc := t.streamToCirc.insert b.streamId c }
  | refused {o : Outcome} {c : UInt32} {b : BeginBody} {t' : SessionTask}
    (hcmd : t.exitCommand = some (c, .start b))
    (h : Quiet { t with streamToCirc := t.streamToCirc.insert b.streamId c } t')
    (hgone : t'.streamToCirc.lookup b.streamId = none) : Moved A t (.next o) t'
  | sent {o : Outcome} {c : UInt32} {b : DataBody} {u : ℕ} {rest : List Task}
    (hcmd : t.exitCommand = some (c, .data b)) (hrest : t.pending = rest.flatMap Task.pending)
    (hu : t.executor.dispatcher.streams.lookup b.streamId = some u) :
    Moved A t (.next o)
      { t with
        agenda := rest
        executor :=
          { t.executor with
            dispatcher := t.executor.dispatcher.setUpstream u fun up =>
              { up with written := up.written ++ [b.bytes] } } }
  | stopped {o : Outcome} {c : UInt32} {b : EndBody} {rest : List Task}
    (hcmd : t.exitCommand = some (c, .stop b)) (hrest : t.pending = rest.flatMap Task.pending) :
    Moved A t (.next o)
      { t with
        agenda := rest
        executor :=
          { t.executor with dispatcher := t.executor.dispatcher.dispatchEnd b }
        streamToCirc := t.streamToCirc.erase b.streamId }
  | pumped (e : PumpEvent) :
    Moved A t (.exitPump e)
      { t with executor := { t.executor with dispatcher := t.executor.dispatcher.pump e } }

lemma Quiet.of_rest (ha : t.agenda = task :: rest) (ht : task.pending = [])
    (h : Quiet { t with agenda := rest } t') : Quiet t t' := by
  refine h.of_same rfl ?_ rfl rfl rfl rfl
  rw [pending_cons ha, ht]
  rfl

lemma lookup_reapCircuit (now : Instant) (h : t.streamToCirc.lookup s = some c) :
    (t.reapCircuit A c now).streamToCirc.lookup s = none := by
  have hp : (t.reapCircuit A c now).streamToCirc = (t.purgeStreams c).streamToCirc := by
    unfold reapCircuit
    split <;> rfl
  rw [hp]
  change (retain _ t.streamToCirc).lookup s = none
  rw [lookup_retain, h]
  simp

variable (o : Outcome)

lemma exitPayload_moved
    (ha : t.agenda = .act (.relayPayloadAtExit c payload) :: rest)
    (hc : t.exitCommand = (streamCommand payload).map (c, ·)) :
    Moved A t (.next o)
      (exitPayload A
        { t with
          agenda := rest
          streamToCirc := match streamCommand payload with
            | some (.start b) => t.streamToCirc.insert b.streamId c
            | some (.stop b) => t.streamToCirc.erase b.streamId
            | _ => t.streamToCirc } c payload o) := by
  have hr := pending_cons ha
  rcases t.executor.dispatcher.dispatch_cases o.net payload with
    ⟨hb, e, heq⟩ | ⟨b, hb, heq⟩ | ⟨b, hb, heq⟩ | ⟨b, hb, heq⟩
  all_goals
    rw [hb] at hc ⊢
  · rw [exitPayload_error (t := { t with agenda := rest }) heq]
    exact .quiet (.of_rest ha rfl (.reapCircuit o.now))
  · rcases t.executor.dispatcher.dispatchBegin_cases o.net b with
      ⟨e, hbg⟩ | ⟨addr, hbg, hf, -⟩
    · rw [hbg] at heq
      rw [exitPayload_error
        (t := { t with agenda := rest, streamToCirc := t.streamToCirc.insert b.streamId c }) heq]
      refine .refused hc (.of_same (.reapCircuit o.now) rfl hr.symm rfl rfl rfl rfl) ?_
      exact lookup_reapCircuit o.now (AList.lookup_insert _)
    · rw [hbg] at heq
      rw [exitPayload_ok
        (t := { t with agenda := rest, streamToCirc := t.streamToCirc.insert b.streamId c }) heq]
      have hlt : t.executor.dispatcher.upstreams.length <
          (t.executor.dispatcher.openUpstream b.streamId addr).upstreams.length := by
        simp [openUpstream]
      simp only [if_pos hlt]
      exact .begun hc hr hf
  · rcases t.executor.dispatcher.dispatchData_cases b with ⟨e, hd⟩ | ⟨u, hu, hd⟩
    · rw [hd] at heq
      rw [exitPayload_error (t := { t with agenda := rest }) heq]
      exact .quiet (.of_rest ha rfl (.reapCircuit o.now))
    · rw [hd] at heq
      rw [exitPayload_ok (t := { t with agenda := rest }) heq]
      simp only [setUpstream, length_modify, lt_irrefl, if_false]
      exact .sent hc hr hu
  · rw [exitPayload_ok
      (t := { t with agenda := rest, streamToCirc := t.streamToCirc.erase b.streamId }) heq]
    simp only [dispatchEnd, lt_irrefl, if_false]
    exact .stopped hc hr

lemma relayPayloadAtExit_moved
    (ha : t.agenda = .act (.relayPayloadAtExit c payload) :: rest) :
    Moved A t (.next o) (relayPayloadAtExit A S { t with agenda := rest } c payload o) := by
  unfold relayPayloadAtExit
  split
  · rename_i err hdc
    have hd : t.executor.dispatcher.dispatch o.net payload =
        (.error (.notASubCell err), t.executor.dispatcher) := by
      unfold dispatch
      rw [hdc]
    rw [exitPayload_error (t := { t with agenda := rest }) hd]
    exact .quiet (.of_rest ha rfl (.reapCircuit o.now))
  · rename_i sub hdc
    split_ifs with hrv hm
    · exact .quiet (.of_rest ha rfl (.handleRendezvous _ _ o.now))
    · exact .quiet (.of_rest ha rfl (.of_rendezvous .refl))
    have hc : t.exitCommand = (streamCommand payload).map (c, ·) := by
      unfold exitCommand
      rw [ha]
      exact if_neg hm
    rw [trackStream_eq hdc]
    exact exitPayload_moved o ha hc

lemma Quiet.execute {a : BridgeAction} (h : ∀ c payload, a ≠ .relayPayloadAtExit c payload)
    (o : Outcome) : Quiet t (t.execute A S o a) := by
  have hd := executed (A := A) (S := S) (t := t) o a
  generalize t.execute A S o a = t' at hd ⊢
  cases hd with
  | wrote c cell => exact ⟨rfl, rfl, rfl, rfl, .inl rfl, fun _ => .inl rfl⟩
  | failed c cell => exact .finish _
  | beside hx => exact .of_executor .refl hx.dispatcher
  | recorded hx => exact .of_executor (.record _) hx.dispatcher
  | reaped c hx => exact .of_executor (.reapCircuit o.now) hx.dispatcher
  | reapedByOut out hx => exact .of_executor (.reapCircuitByOutId out o.now) hx.dispatcher
  | exit c payload => exact absurd rfl (h c payload)

lemma injectNext_moved {u : ℕ} {now : Instant} {payloads : List Bytes}
    (ha : t.agenda = .inject c u now payloads :: rest) :
    Moved A t (.next o) (injectNext A { t with agenda := rest } c u now payloads) := by
  cases payloads with
  | nil => exact .quiet (.of_rest ha rfl .refl)
  | cons p ps =>
    unfold injectNext
    dsimp only
    split
    · rename_i hok
      exact .injected ha hok
    · rename_i he
      exact .dropped ha he

lemma perform_moved (hag : t.agenda = task :: rest) :
    Moved A t (.next o) (perform A S { t with agenda := rest } o task) := by
  cases task with
  | act a =>
    by_cases ha : ∃ c payload, a = .relayPayloadAtExit c payload
    · obtain ⟨c, payload, rfl⟩ := ha
      exact relayPayloadAtExit_moved o hag
    · exact .quiet (.of_rest hag rfl (.execute (fun c payload h => ha ⟨c, payload, h⟩) o))
  | inject c u now payloads => exact injectNext_moved o hag
  | sweep => exact .quiet (.of_rest hag rfl (.of_rendezvous .refl))

lemma handleCell_moved {buf : Bytes} {cell : Cell} (now : Instant) (hi : t.agenda = [])
    (hd : Cell.decode buf = .ok cell) :
    Moved A t (.arm (.cell buf now)) (t.handleCell A cell now) := by
  have hl : ∀ bc acts,
      ((bc.circuits.lookup cell.circId).isSome = true →
        ((t.state.processInboundFromPrev A cell now).2.circuits.lookup cell.circId).isSome = true) →
      Moved A t (.arm (.cell buf now))
        ({ t with state := bc, lives := t.countLife cell.circId bc }.executeActions acts) := by
    intro bc acts hm
    unfold countLife
    split_ifs with hn
    · have hc := prev_makes hn.1 (hm hn.2)
      exact .made hi hd hc hn.1 (.executeActions bc acts)
    · exact .quiet (.executeActions bc acts)
  unfold handleCell
  split
  · rename_i hok
    refine hl _ _ fun h => ?_
    rw [hok]
    exact h
  · rename_i he
    refine hl _ _ fun h => ?_
    rw [he]
    exact tombstone_makes h

lemma takeArm_moved (a : Arm) (hi : t.agenda = []) : Moved A t (.arm a) (t.takeArm A a) := by
  cases a with
  | cell buf now =>
    unfold takeArm
    dsimp only
    split
    · rename_i cell hd
      exact handleCell_moved now hi hd
    · exact .quiet (.finish _)
  | exitEvent now =>
    change Moved A t (.arm (.exitEvent now)) (t.handleExitEvent now)
    unfold handleExitEvent
    split
    · exact .quiet .refl
    rename_i u ev events hev
    dsimp only
    split
    · rename_i hr
      exact .unheard hi hev hr
    · rename_i c hr
      rw [encodeExitEventChunked_eq]
      exact .heard hi hev hr
  | nextHopCell now =>
    refine .quiet ?_
    change Quiet t (t.handleNextHopCell A now)
    unfold handleNextHopCell
    split
    · exact .refl
    dsimp only
    split
    · exact .of_executor (.executeActions _ _) rfl
    · exact .of_same (.reapCircuitByOutId _ now) rfl rfl rfl rfl rfl rfl
  | delivery now =>
    refine .quiet ?_
    change Quiet t (t.deliverRendezvous A now)
    unfold deliverRendezvous
    split
    · exact .refl
    · split
      · exact .refl
      · exact .of_rendezvous (.sendRendezvousSub _ _ now)
  | tick order now =>
    refine .quiet ⟨rfl, rfl, rfl, rfl, .inl ?_, fun _ => .inl rfl⟩
    have hp : t.pending = [] := by
      rw [pending, hi]
      rfl
    rw [hp]
    exact pending_acts _
  | eof | readFailed | readTimeout => exact .quiet (.finish _)

lemma around_moved (e : SessionEvent) : Moved A t e (t.around S e) := by
  cases e with
  | exitPump e => exact .pumped e
  | arrive k cell =>
    exact .quiet (.of_executor .refl (arrive_dispatcher k cell))
  | linkClosed k => exact .quiet (.of_executor .refl rfl)
  | other c =>
    refine .quiet ?_
    change Quiet t (if _ then t else _ : SessionTask)
    split_ifs
    · exact .refl
    · exact .of_rendezvous .refl
  | arm | next => exact .quiet .refl

/-- Every step is one of the moves. -/
lemma step_moved (t : SessionTask) (e : SessionEvent) : Moved A t e (t.step A S e) := by
  have hs := stepped (A := A) (S := S) t e
  generalize t.step A S e = t' at hs ⊢
  cases hs with
  | stay => exact .quiet .refl
  | arm a hr hi => exact takeArm_moved a hi
  | next o hr ha => exact perform_moved o ha
  | around => exact around_moved e

end SessionTask

end Mirage.Bridge
