import Mirage.Lib.Slots
import Mirage.Proofs.ExitMoves

/-!
# Whose stream it is

All circuits of a session share one dispatcher, and a stream is known by its id alone (`Separate`).
-/

namespace Mirage.Bridge

open Circuits Words Maps Runs Slots List Option AList

variable {u : ℕ} {ev : StreamEvent} {f : Upstream → Upstream} {e : SessionEvent}

namespace TcpStreamDispatcher

variable {d d' : TcpStreamDispatcher} {s : StreamId} {u : ℕ}

def ids (d : TcpStreamDispatcher) : List StreamId := d.upstreams.map (·.streamId)

instance (l : List Upstream) (u : ℕ) (s : StreamId) : Decidable (Live l u s) :=
  decidable_of_iff (∃ up ∈ l[u]?, up.streamId = s ∧ up.pump ≠ .done) Iff.rfl

/-- The read pump of connection `u` has not finished, or an event of it waits. -/
def Busy (d : TcpStreamDispatcher) (u : ℕ) (s : StreamId) : Prop :=
  Live d.upstreams u s ∨ ∃ p ∈ d.events, p.1 = u ∧ p.2.streamId = s
deriving Decidable

/-- Nothing is left of the streams with the id. -/
def Idle (d : TcpStreamDispatcher) (s : StreamId) : Prop :=
  (∀ up ∈ d.upstreams, up.streamId = s → up.pump = .done) ∧ ∀ p ∈ d.events, p.2.streamId ≠ s
deriving Decidable

lemma Idle.not_busy (h : Idle d s) : ¬ Busy d u s := by
  rintro (⟨up, hup, hs, hd⟩ | ⟨p, hp, -, hs⟩)
  · exact hd (h.1 up (mem_of_getElem? hup) hs)
  · exact h.2 p hp hs

/-- The map leads to connections that are still pumped. -/
structure Leads (d : TcpStreamDispatcher) : Prop where
  listening : d.listening = true
  live : ∀ s u, d.streams.lookup s = some u → Live d.upstreams u s

lemma Live.modify {l : List Upstream} {v : ℕ} (h : Live l u s)
    (hid : ∀ up, (f up).streamId = up.streamId)
    (hp : ∀ up, l[u]? = some up → v = u → up.pump ≠ .done → (f up).pump ≠ .done) :
    Live (l.modify v f) u s := by
  obtain ⟨up, hup, hs, hd⟩ := h
  by_cases hv : v = u
  · refine ⟨f up, ?_, (hid up).trans hs, hp up hup hv hd⟩
    rw [getElem?_modify, hup]
    simp [hv]
  · refine ⟨up, ?_, hs, hd⟩
    rw [getElem?_modify, hup]
    simp [hv]

lemma Leads.openUpstream (h : Leads d) (addr : IpAddr) : Leads (d.openUpstream s addr) := by
  refine ⟨h.listening, fun s' u hu => ?_⟩
  change (d.streams.insert s d.upstreams.length).lookup s' = some u at hu
  by_cases hs : s' = s
  · subst hs
    rw [lookup_insert] at hu
    obtain rfl := some.inj hu
    exact ⟨_, getElem?_concat_length, rfl, by simp⟩
  · rw [lookup_insert_ne hs] at hu
    obtain ⟨up, hup, hid, hd⟩ := h.live s' u hu
    exact ⟨up, getElem?_append_of_some hup, hid, hd⟩

lemma Leads.setUpstream (h : Leads d) (v : ℕ) (hid : ∀ up, (f up).streamId = up.streamId)
    (hp : ∀ up, up.pump ≠ .done → (f up).pump ≠ .done) : Leads (d.setUpstream v f) :=
  ⟨h.listening, fun s u hu => (h.live s u hu).modify hid fun up _ _ => hp up⟩

lemma Leads.emit (h : Leads d) (e : StreamEvent) : Leads (d.emit u e) :=
  ⟨h.listening, h.live⟩

lemma Leads.dispatchEnd (h : Leads d) (b : EndBody) : Leads (d.dispatchEnd b) := by
  refine ⟨h.listening, fun s u hu => ?_⟩
  change (d.streams.erase b.streamId).lookup s = some u at hu
  by_cases hs : s = b.streamId
  · rw [hs, lookup_erase] at hu
    cases hu
  · rw [lookup_erase_ne hs] at hu
    exact h.live s u hu

lemma Leads.pumped (h : Leads d) (hp : Pumped d d') : Leads d' := by
  cases hp with
  | idle => exact h
  | read =>
    refine .emit (.setUpstream h _ ?_ ?_) _
    · exact fun _ => rfl
    · exact fun _ hd => hd
  | deaf hl => exact absurd (h.listening.symm.trans hl) (by simp)
  | eof =>
    refine .emit (.setUpstream h _ ?_ ?_) _
    · exact fun _ => rfl
    · simp
  | writeFailed => exact .setUpstream h _ (fun _ => rfl) fun _ hd => hd
  | remove hup hc =>
    rename_i v up
    refine ⟨h.listening, fun s u hu => ?_⟩
    have hs : s ≠ up.streamId := by
      rintro rfl
      rw [lookup_erase] at hu
      cases hu
    rw [lookup_erase_ne hs] at hu
    refine (h.live s u hu).modify (fun _ => rfl) fun up' hu' hv => ?_
    -- The connection that finishes has another id.
    obtain ⟨up'', hux, hid, -⟩ := h.live s u hu
    subst hv
    obtain rfl := some.inj (hup.symm.trans hux)
    exact absurd hid.symm hs

lemma ids_openUpstream (s : StreamId) (addr : IpAddr) :
    (d.openUpstream s addr).ids = d.ids ++ [s] := by
  simp [ids, openUpstream]

lemma setUpstream_getElem? (v : ℕ) : (d.setUpstream v f).upstreams[u]? =
      d.upstreams[u]?.map fun up => if v = u then f up else up := by
  rw [setUpstream, getElem?_modify]
  rfl

lemma ids_setUpstream (v : ℕ) (hid : ∀ up, (f up).streamId = up.streamId) :
    (d.setUpstream v f).ids = d.ids := by
  refine ext_getElem? fun j => ?_
  rw [ids, ids, getElem?_map, getElem?_map, setUpstream_getElem?, Option.map_map]
  refine Option.map_congr fun up _ => ?_
  split_ifs
  · exact hid up
  · rfl

lemma Pumped.ids (h : Pumped d d') : d'.ids = d.ids := by
  cases h with
  | idle => rfl
  | read | deaf | eof | remove | writeFailed => exact ids_setUpstream _ fun _ => rfl

lemma Pumped.busy (h : Pumped d d') (hb : Busy d' u s) : Busy d u s := by
  rcases hb with hl | ⟨p, hp, hu, hs⟩
  · exact .inl (h.live hl)
  have ho : p ∈ d.events → Busy d u s := fun hp => .inr ⟨p, hp, hu, hs⟩
  cases h with
  | idle | deaf | remove | writeFailed => exact ho hp
  | read hup hr hls | eof hup hr =>
    unfold emit at hp
    split_ifs at hp
    · rcases mem_append.1 hp with hp | hp
      · exact ho hp
      · obtain rfl := mem_singleton.1 hp
        obtain rfl := hu
        exact .inl ⟨_, hup, hs, by simp [hr]⟩
    · exact ho hp

lemma Pumped.written (h : Pumped d d') {up up' : Upstream} (hup : d.upstreams[u]? = some up)
    (hu' : d'.upstreams[u]? = some up') : up'.written = up.written := by
  have hs : ∀ v f, (∀ up, (f up).written = up.written) →
      d'.upstreams = (d.setUpstream v f).upstreams → up'.written = up.written := by
    intro v f hf heq
    rw [heq, setUpstream_getElem?, hup, map_some, some.injEq] at hu'
    subst hu'
    split_ifs
    · exact hf up
    · rfl
  cases h with
  | idle => rw [some.inj (hup.symm.trans hu')]
  | read | deaf | eof | remove | writeFailed =>
    refine hs _ _ ?_ rfl
    exact fun _ => rfl

end TcpStreamDispatcher

def StreamCommand.streamId : StreamCommand → StreamId
  | .start b => b.streamId
  | .data b => b.streamId
  | .stop b => b.streamId

lemma streamId_of_mem_told {cmd : StreamCommand} (h : cmd ∈ told ev) :
    cmd.streamId = ev.streamId := by
  cases ev with
  | data s bytes =>
    obtain ⟨chunk, -, rfl⟩ := mem_map.1 h
    rfl
  | ended s =>
    obtain rfl := mem_singleton.1 h
    rfl

lemma streamCommand_of_mem_exitPayloads {p : Bytes} (h : p ∈ exitPayloads ev) :
    ∃ cmd, streamCommand p = some cmd ∧ cmd.streamId = ev.streamId := by
  have hm : streamCommand p ∈ (told ev).map some := by
    rw [← map_streamCommand]
    exact mem_map_of_mem h
  obtain ⟨cmd, hc, heq⟩ := mem_map.1 hm
  exact ⟨cmd, heq.symm, streamId_of_mem_told hc⟩

/-- Connection `u` is what the latest `BEGIN` of stream `s` opened that was accepted from the
circuit. -/
structure Current (ids : List StreamId) (openers : List CircuitLife) (life : CircuitLife)
    (s : StreamId) (u : ℕ) : Prop where
  stream : ids[u]? = some s
  opener : openers[u]? = some life
  latest : ∀ v, u < v → ids[v]? = some s → openers[v]? ≠ some life

lemma Current.concat {ids : List StreamId} {openers : List CircuitLife} {life life' : CircuitLife}
    {s s' : StreamId} (h : Current ids openers life s u) (hl : openers.length = ids.length)
    (hne : s ≠ s') : Current (ids ++ [s']) (openers ++ [life']) life s u := by
  refine ⟨getElem?_append_of_some h.stream, getElem?_append_of_some h.opener, fun v hv hs => ?_⟩
  have hlt : v < ids.length := by
    by_contra hge
    rw [getElem?_append_right (Nat.not_lt.1 hge)] at hs
    have hm := mem_of_getElem? hs
    exact hne (mem_singleton.1 hm)
  rw [getElem?_append_left hlt] at hs
  rw [getElem?_append_left (hl.symm ▸ hlt)]
  exact h.latest v hv hs

namespace SessionTask

open TcpStreamDispatcher

variable {A : Aead} {S : Ed25519} {t t' : SessionTask} {c : UInt32} {s : StreamId} {u : ℕ}

def life (t : SessionTask) (c : UInt32) : CircuitLife := ⟨c, t.lives c⟩

/-- The circuit has opened all that is still busy under the id. -/
def OwnsBusy (t : SessionTask) (c : UInt32) (s : StreamId) : Prop :=
  ∀ u < t.executor.dispatcher.upstreams.length, Busy t.executor.dispatcher u s →
    t.openers[u]? = some (t.life c)

/-- `BEGIN` comes when nothing is left of its id; `DATA` and `END` from the circuit whose stream it
is. -/
def Allowed (t : SessionTask) (c : UInt32) : StreamCommand → Prop
  | .start b => t.executor.dispatcher.streams.lookup b.streamId = none →
      Idle t.executor.dispatcher b.streamId
  | .data b => t.OwnsBusy c b.streamId
  | .stop b => t.OwnsBusy c b.streamId

/-- No two circuits meet under a stream id, and none is created over streams that are left. -/
def Apart (t : SessionTask) : SessionEvent → Prop
  | .arm (.cell buf _) => ∀ cell ∈ (Cell.decode buf).toOption, cell.command = cmdCreate →
      t.state.circuits.lookup cell.circId = none →
      ∀ p ∈ t.streamToCirc.entries, p.2 = cell.circId → Idle t.executor.dispatcher p.1
  | .next _ => ∀ p ∈ t.exitCommand, t.Allowed p.1 p.2
  | _ => True

instance (t : SessionTask) (c : UInt32) (s : StreamId) : Decidable (t.OwnsBusy c s) :=
  inferInstanceAs (Decidable (∀ u < _, _))

instance (t : SessionTask) (c : UInt32) : DecidablePred (t.Allowed c) := fun _ => by
  unfold Allowed
  split <;> infer_instance

-- Going through the entries, not through all the ids there are.
instance (t : SessionTask) (c : UInt32) : Decidable (∀ p ∈ t.streamToCirc.entries, p.2 = c →
    Idle t.executor.dispatcher p.1) :=
  List.decidableBAll _ _

instance (t : SessionTask) : DecidablePred (Apart t) := fun _ => by
  unfold Apart
  split <;> infer_instance

/-- A circuit reaches what it has opened, and hears from the connection of its latest `BEGIN`. -/
structure StreamsIsolated (t : SessionTask) (e : SessionEvent) (t' : SessionTask) : Prop where
  written : ∀ (u : ℕ) (up up' : Upstream), t.executor.dispatcher.upstreams[u]? = some up →
    t'.executor.dispatcher.upstreams[u]? = some up' → up'.written ≠ up.written →
    ∃ c b, t.exitCommand = some (c, .data b) ∧ up'.written = up.written ++ [b.bytes] ∧
      t.openers[u]? = some (t.life c)
  closed : ∀ s u, t.executor.dispatcher.streams.lookup s = some u →
    t'.executor.dispatcher.streams.lookup s = none → (∃ p, e = .exitPump p) ∨
    ∃ c b, t.exitCommand = some (c, .stop b) ∧ b.streamId = s ∧ t.openers[u]? = some (t.life c)
  injected : t'.injected = t.injected ∨ ∃ x cmd, t'.injected = t.injected ++ [x] ∧
    streamCommand x.payload = some cmd ∧
    Current t.executor.dispatcher.ids t.openers (t.life x.circId) cmd.streamId x.origin

/-- A busy connection is of the circuit that its id leads to. -/
structure Separate (t : SessionTask) : Prop where
  leads : t.executor.dispatcher.Leads
  openers : t.openers.length = t.executor.dispatcher.ids.length
  route : ∀ s c, t.streamToCirc.lookup s = some c → ∀ u, Busy t.executor.dispatcher u s →
    Current t.executor.dispatcher.ids t.openers (t.life c) s u
  due : ∀ x ∈ t.pending, ∃ cmd, streamCommand x.payload = some cmd ∧
    Current t.executor.dispatcher.ids t.openers (t.life x.circId) cmd.streamId x.origin

lemma Separate.of_sub (h : Separate t) (hld : t'.executor.dispatcher.Leads)
    (hi : t'.executor.dispatcher.ids = t.executor.dispatcher.ids)
    (ho : t'.openers = t.openers) (hlv : t'.lives = t.lives)
    (hr : ∀ s c, t'.streamToCirc.lookup s = some c → t.streamToCirc.lookup s = some c)
    (hb : ∀ u s, Busy t'.executor.dispatcher u s → Busy t.executor.dispatcher u s)
    (hd : ∀ x ∈ t'.pending, x ∈ t.pending) : Separate t' := by
  have hl : ∀ c, t'.life c = t.life c := fun c => by rw [life, life, hlv]
  refine ⟨hld, ?_, fun s c hc u hu => ?_, fun x hx => ?_⟩
  · rw [hi, ho]
    exact h.openers
  · rw [hi, ho, hl]
    exact h.route s c (hr s c hc) u (hb u s hu)
  · rw [hi, ho, hl]
    exact h.due x (hd x hx)

lemma Quiet.route (hq : Quiet t t') (hc : t'.streamToCirc.lookup s = some c) :
    t.streamToCirc.lookup s = some c := by
  rcases hq.streams s with heq | ⟨hn, -⟩
  · rw [← heq, hc]
  · rw [hn] at hc
    cases hc

lemma Quiet.due (hq : Quiet t t') {x : Injection} (hx : x ∈ t'.pending) : x ∈ t.pending := by
  rcases hq.pending with heq | ⟨-, hn⟩
  · exact heq ▸ hx
  · rw [hn] at hx
    cases hx

lemma Separate.of_quiet (h : Separate t) (hq : Quiet t t') : Separate t' := by
  refine h.of_sub (hq.dispatcher ▸ h.leads) (by rw [hq.dispatcher]) hq.openers hq.lives
    (fun s c => hq.route) (fun u s hu => ?_) fun x => hq.due
  rwa [hq.dispatcher] at hu

lemma Separate.created (h : Separate t) (hid : t.agenda = [])
    (hc : ∀ s, t.streamToCirc.lookup s = some c → Idle t.executor.dispatcher s) :
    Separate { t with lives := Function.update t.lives c (t.lives c + 1) } := by
  refine ⟨h.leads, h.openers, fun s i hi u hu => ?_, fun x hx => ?_⟩
  · have hne : i ≠ c := by
      rintro rfl
      exact (hc s hi).not_busy hu
    have ho := h.route s i hi u hu
    rwa [life, ← Function.update_of_ne hne (t.lives c + 1) t.lives] at ho
  · rw [hid] at hx
    cases hx

lemma Orderly.pending_eq_nil (h : t.Orderly) {p : UInt32 × StreamCommand}
    (hp : t.exitCommand = some p) : t.pending = [] := by
  unfold exitCommand at hp
  split at hp
  · rename_i i payload rest ha
    obtain ⟨rfl, -⟩ := h.ready ha fun hps => hps
    exact pending_cons ha
  · cases hp

abbrev begun (t : SessionTask) (rest : List Task) (c : UInt32) (s : StreamId) (addr : IpAddr) :
    SessionTask :=
  { t with
    agenda := rest
    executor := { t.executor with dispatcher := t.executor.dispatcher.openUpstream s addr }
    openers := t.openers ++ [t.life c]
    streamToCirc := t.streamToCirc.insert s c }

lemma Separate.begun (h : Separate t) {addr : IpAddr} {rest : List Task}
    (hr : rest.flatMap Task.pending = []) (hid : Idle t.executor.dispatcher s) :
    Separate (t.begun rest c s addr) := by
  have hl : t.executor.dispatcher.upstreams.length = t.executor.dispatcher.ids.length := by
    simp [ids]
  refine ⟨h.leads.openUpstream addr, ?_, fun s' i hi u hu => ?_, fun x hx => ?_⟩
  · rw [ids_openUpstream, length_append, length_append, h.openers]
    rfl
  · change Current (t.executor.dispatcher.openUpstream s addr).ids (t.openers ++ [t.life c])
      (t.life i) s' u
    rw [ids_openUpstream]
    have hb : Busy t.executor.dispatcher u s' ∨
        u = t.executor.dispatcher.upstreams.length ∧ s' = s := by
      rcases hu with hlv | hev
      · exact hlv.of_concat.imp_left .inl
      · exact .inl (.inr hev)
    by_cases hs : s' = s
    · -- Of the stream itself only the new connection is busy.
      subst hs
      rw [lookup_insert, some.injEq] at hi
      obtain rfl := hi
      obtain ⟨rfl, -⟩ := hb.resolve_left hid.not_busy
      refine ⟨?_, ?_, fun v hv hv' => ?_⟩
      · rw [hl, getElem?_concat_length]
      · rw [hl, ← h.openers, getElem?_concat_length]
      · have hv := (List.getElem?_eq_some_iff.1 hv').1
        rw [length_append, length_singleton] at hv
        omega
    · rw [lookup_insert_ne hs] at hi
      have ho := hb.resolve_right fun h' => hs h'.2
      exact (h.route s' i hi u ho).concat h.openers hs
  · change x ∈ rest.flatMap Task.pending at hx
    rw [hr] at hx
    cases hx

lemma Separate.popped (h : Separate t) {p : ℕ × StreamEvent} {events : List (ℕ × StreamEvent)}
    (hev : t.executor.dispatcher.events = p :: events) :
    Separate { t with executor := { t.executor with
      dispatcher := { t.executor.dispatcher with events := events } } } := by
  refine h.of_sub ⟨h.leads.listening, h.leads.live⟩ rfl rfl rfl (fun _ _ hs => hs)
    (fun u s hu => ?_) fun x hx => hx
  exact hu.imp_right fun ⟨q, hq, hqs⟩ => ⟨q, hev ▸ mem_cons_of_mem p hq, hqs⟩

lemma Separate.moved (h : Separate t) (ho : t.Orderly) (he : Apart t e) (hm : Moved A t e t') :
    Separate t' := by
  cases hm with
  | quiet hq => exact h.of_quiet hq
  | made hid hdc hc hn hq =>
    refine (h.created hid fun s hs => ?_).of_quiet hq
    exact he _ (by rw [hdc]; rfl) hc hn ⟨s, _⟩ (mem_lookup_iff.1 hs) rfl
  | unheard hid hev => exact h.popped hev
  | heard hid hev hrt =>
    rename_i now u ev events c
    have hsb := h.popped hev
    refine ⟨hsb.leads, hsb.openers, hsb.route, fun x hx => ?_⟩
    change x ∈ (exitPayloads ev).map (Injection.mk c u) ++ [] at hx
    rw [append_nil] at hx
    obtain ⟨p, hp, rfl⟩ := mem_map.1 hx
    obtain ⟨cmd, hc, hs⟩ := streamCommand_of_mem_exitPayloads hp
    refine ⟨cmd, hc, ?_⟩
    rw [hs]
    exact h.route ev.streamId c hrt u (.inr ⟨(u, ev), hev ▸ mem_cons_self, rfl, rfl⟩)
  | injected ha hok =>
    refine h.of_sub h.leads rfl rfl rfl (fun _ _ hs => hs) (fun _ _ hu => hu) fun x hx => ?_
    change x ∈ flatMap Task.pending (_ ++ _) at hx
    rw [pending_acts] at hx
    rw [pending_cons ha]
    exact mem_cons_of_mem _ hx
  | dropped ha hey =>
    refine h.of_sub h.leads rfl rfl rfl (fun _ _ hs => hs) (fun _ _ hu => hu) fun x hx => ?_
    rw [pending_cons ha]
    exact mem_append_right _ hx
  | begun hc hr hf =>
    exact h.begun (hr.symm.trans (ho.pending_eq_nil hc)) (he _ hc hf)
  | refused hc hq hg =>
    rename_i o c b
    refine h.of_sub (hq.dispatcher ▸ h.leads) (by rw [hq.dispatcher]) hq.openers hq.lives
      (fun s i hi => ?_) (fun u s hu => ?_) fun x => hq.due
    · have hs : s ≠ b.streamId := by
        rintro rfl
        rw [hg] at hi
        cases hi
      exact (lookup_insert_ne hs).symm.trans (hq.route hi)
    · rwa [hq.dispatcher] at hu
  | sent hc hr hu =>
    refine h.of_sub (.setUpstream h.leads _ ?_ ?_) ?_ rfl rfl (fun _ _ hs => hs) (fun v s hv => ?_)
      fun x hx => hr ▸ hx
    · exact fun _ => rfl
    · exact fun _ hd => hd
    · exact ids_setUpstream _ fun _ => rfl
    · exact hv.imp_left fun hl => hl.of_modify (fun _ => rfl) fun _ _ hd => hd
  | stopped hc hr =>
    rename_i o c b rest
    refine h.of_sub (h.leads.dispatchEnd b) rfl rfl rfl (fun s i hi => ?_) (fun _ _ hu => hu)
      fun x hx => hr ▸ hx
    have hs : s ≠ b.streamId := by
      rintro rfl
      rw [lookup_erase] at hi
      cases hi
    rwa [lookup_erase_ne hs] at hi
  | pumped p =>
    have hp := t.executor.dispatcher.pumped p
    exact h.of_sub (h.leads.pumped hp) hp.ids rfl rfl (fun _ _ hs => hs) (fun _ _ => hp.busy)
      fun x hx => hx

lemma StreamsIsolated.of_grow
    (hup : ∀ (u : ℕ) (up : Upstream), t.executor.dispatcher.upstreams[u]? = some up →
      t'.executor.dispatcher.upstreams[u]? = some up)
    (hs : ∀ s u, t.executor.dispatcher.streams.lookup s = some u →
      t'.executor.dispatcher.streams.lookup s ≠ none) (hi : t'.injected = t.injected) :
    StreamsIsolated t e t' := by
  refine ⟨fun u up up' h h' hne => ?_, fun s u hu hn => ?_, .inl hi⟩
  · exact absurd (by rw [some.inj ((hup u up h).symm.trans h')]) hne
  · exact absurd hn (hs s u hu)

lemma StreamsIsolated.of_same (hd : t'.executor.dispatcher = t.executor.dispatcher)
    (hi : t'.injected = t.injected) : StreamsIsolated t e t' := by
  refine .of_grow (fun u up hup => hd ▸ hup) (fun s u hu => ?_) hi
  rw [hd, hu]
  simp

lemma Separate.opener (h : Separate t) (ho : t.OwnsBusy c s)
    (hu : t.executor.dispatcher.streams.lookup s = some u) : t.openers[u]? = some (t.life c) := by
  have hl := h.leads.live s u hu
  obtain ⟨up, hup, -⟩ := hl
  exact ho u (List.getElem?_eq_some_iff.1 hup).1 (.inl (h.leads.live s u hu))

lemma Separate.isolated (h : Separate t) (he : Apart t e) (hm : Moved A t e t') :
    StreamsIsolated t e t' := by
  cases hm with
  | quiet hq | made hi hd hc hnw hq | refused hc hq =>
    exact .of_same hq.dispatcher hq.injected
  | unheard | heard => exact .of_grow (fun _ _ hup => hup) (fun _ _ hu => by simp [hu]) rfl
  | injected ha hok =>
    rename_i o c u now p ps rest acts bc
    obtain ⟨cmd, hc, hcr⟩ := h.due ⟨c, u, p⟩ (by
      rw [pending_cons ha]
      exact mem_cons_self)
    have hsm : StreamsIsolated t (.next o) t := .of_same rfl rfl
    exact ⟨hsm.written, hsm.closed, .inr ⟨_, cmd, rfl, hc, hcr⟩⟩
  | dropped => exact .of_same rfl rfl
  | begun hc hr hf =>
    rename_i o c b addr rest
    refine .of_grow (fun u up hup => getElem?_append_of_some hup) (fun s u hu => ?_) rfl
    change (t.executor.dispatcher.streams.insert b.streamId _).lookup s ≠ none
    by_cases hs : s = b.streamId
    · rw [hs, lookup_insert]
      simp
    · rw [lookup_insert_ne hs, hu]
      simp
  | sent hc hr hu =>
    rename_i o c b u rest
    refine ⟨fun v up up' hup hu' hne => ?_, fun s v hv hn => ?_, .inl rfl⟩
    · rw [setUpstream_getElem?, hup, map_some, some.injEq] at hu'
      subst hu'
      split_ifs at hne ⊢ with hv
      · subst hv
        exact ⟨c, b, hc, rfl, h.opener (he _ hc) hu⟩
      · exact absurd rfl hne
    · exact absurd (hv.symm.trans hn) (by simp)
  | stopped hc hr =>
    rename_i o c b rest
    refine ⟨fun v up up' hup hu' hne => ?_, fun s v hv hn => .inr ⟨c, b, hc, ?_⟩, .inl rfl⟩
    · exact absurd (by rw [some.inj (hup.symm.trans hu')]) hne
    change (t.executor.dispatcher.streams.erase b.streamId).lookup s = none at hn
    have hs : b.streamId = s := by
      by_contra hne
      rw [lookup_erase_ne (Ne.symm hne), hv] at hn
      cases hn
    subst hs
    exact ⟨rfl, h.opener (he _ hc) hv⟩
  | pumped p =>
    refine ⟨fun v up up' hup hu' hne => ?_, fun s v hv hn => .inl ⟨p, rfl⟩, .inl rfl⟩
    exact absurd ((t.executor.dispatcher.pumped p).written hup hu') hne

lemma start_separate (state : BridgeCircuitState) (config : TcpStreamDispatcherConfig)
    (dialer tokenVerify : Bool) (router : Option RendezvousRouter) :
    Separate (start state (.new config dialer tokenVerify) router) := by
  refine start_rec _ _ _ ?_ (fun t _ _ h => ⟨h.leads, h.openers, h.route, h.due⟩) fun t _ h => ?_
  · refine ⟨⟨rfl, fun s u hu => ?_⟩, rfl, fun s c hc => ?_, fun x hx => ?_⟩
    · cases hu
    · cases hc
    · cases hx
  · exact h.of_quiet (.finish _)

/-- If no two circuits meet under a stream id, each reaches and hears its own connections only. -/
theorem streams_isolated (A : Aead) (S : Ed25519) (policy : BridgePolicy)
    (picker : UInt64 → UInt32) (seq : UInt64) (relayMode : Bool)
    (config : TcpStreamDispatcherConfig) (dialer tokenVerify : Bool)
    (router : Option RendezvousRouter) (events : List SessionEvent)
    (h : Along (step A S) Apart
      (start (.start policy picker seq relayMode) (.new config dialer tokenVerify) router) events) :
    Along (step A S) (fun t e => StreamsIsolated t e (t.step A S e))
      (start (.start policy picker seq relayMode) (.new config dialer tokenVerify) router)
      events := by
  refine along_of_inv (I := fun t => Separate t ∧ t.Orderly)
    (fun t e ht he => ⟨ht.1.moved ht.2 he (step_moved t e), ht.2.step e⟩)
    (fun t e ht he => ht.1.isolated he (step_moved t e)) _ events
    ⟨start_separate _ _ _ _ _, .inl (allLight_of_idle (start_agenda _ _ _))⟩ h

def dataPayload (id : UInt8) (byte : UInt8) : Bytes := [cmdData, 0, 3, 0, id, byte]

/-- Circuit 1 has opened the only connection, and what circuit 2 sends under the same id goes to
it. -/
theorem data_crosses :
    let t := run (step Aead.plain anySignature) plainSession
      (openCircuit 1 ++ openCircuit 2 ++ relayIn 1 (beginPayload 1) ++
        [cellIn 2 cmdRelay (dataPayload 1 65 ++ List.replicate 16 0)])
    t.exitCommand = some (2, .data ⟨1, [65]⟩) ∧ t.openers = [⟨1, 1⟩] ∧
      (t.step Aead.plain anySignature (.next fine)).executor.dispatcher.upstreams.map (·.written) =
        [[[65]]] := by
  decide +kernel

def twoStreams : List SessionEvent :=
  openCircuit 1 ++ openCircuit 2 ++ relayIn 1 (beginPayload 1) ++ relayIn 2 (beginPayload 2) ++
    relayIn 2 (dataPayload 2 65) ++
    [.exitPump (.read 1 [72, 105]), .arm (.exitEvent 0), .next fine]

theorem streams_isolated_two :
    (run (step Aead.plain anySignature) plainSession twoStreams).injected.map (·.origin) = [1] ∧
      Along (step Aead.plain anySignature)
        (fun t e => StreamsIsolated t e (t.step Aead.plain anySignature e)) plainSession
        twoStreams :=
  ⟨by decide +kernel, streams_isolated Aead.plain anySignature .default sequentialOutCircIdPicker 0
    false .default true false none twoStreams (by decide +kernel)⟩

end SessionTask

end Mirage.Bridge
