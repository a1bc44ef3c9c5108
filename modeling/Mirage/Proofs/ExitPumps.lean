import Mirage.Bridge.Dispatcher
import Mirage.Lib.Runs

/-!
# Read pumps and the map of streams

The cap on streams is checked against the map, but what it is to bound is the read pumps. The two
agree as long as the map has every pump that runs (`Held`).
-/

namespace Mirage.Bridge

open Circuits Words Maps Runs TcpStreamDispatcherConfig Option
open List hiding Vector

inductive StreamCommand
  | start (b : BeginBody)
  | data (b : DataBody)
  | stop (b : EndBody)
  deriving DecidableEq

def streamCommand (payload : Bytes) : Option StreamCommand :=
  match RelaySubCell.decode payload with
  | .error _ => none
  | .ok sub =>
    if sub.command = cmdBegin then (BeginBody.decode sub.body).toOption.map .start
    else if sub.command = cmdData then (DataBody.decode sub.body).toOption.map .data
    else if sub.command = cmdEnd then (EndBody.decode sub.body).toOption.map .stop
    else none

def endId (payload : Bytes) : Option StreamId :=
  match streamCommand payload with
  | some (.stop b) => some b.streamId
  | _ => none

variable {d' : TcpStreamDispatcher}

namespace TcpStreamDispatcher

variable {d : TcpStreamDispatcher} {net : Network} {payload : Bytes}

variable (d)

lemma dispatch_cases (net : Network) (payload : Bytes) :
    (streamCommand payload = none ∧ ∃ e, d.dispatch net payload = (.error e, d)) ∨
    (∃ b, streamCommand payload = some (.start b) ∧
      d.dispatch net payload = d.dispatchBegin net b) ∨
    (∃ b, streamCommand payload = some (.data b) ∧ d.dispatch net payload = d.dispatchData b) ∨
    ∃ b, streamCommand payload = some (.stop b) ∧
      d.dispatch net payload = (.ok (), d.dispatchEnd b) := by
  unfold dispatch streamCommand
  cases RelaySubCell.decode payload with
  | error e => exact .inl ⟨rfl, _, rfl⟩
  | ok sub =>
    dsimp only
    split_ifs
    · cases BeginBody.decode sub.body with
      | error e => exact .inl ⟨rfl, _, rfl⟩
      | ok b => exact .inr (.inl ⟨b, rfl, rfl⟩)
    · cases DataBody.decode sub.body with
      | error e => exact .inl ⟨rfl, _, rfl⟩
      | ok b => exact .inr (.inr (.inl ⟨b, rfl, rfl⟩))
    · cases EndBody.decode sub.body with
      | error e => exact .inl ⟨rfl, _, rfl⟩
      | ok b => exact .inr (.inr (.inr ⟨b, rfl, rfl⟩))
    · exact .inl ⟨rfl, _, rfl⟩

lemma dispatchBegin_cases (net : Network) (b : BeginBody) :
    (∃ e, d.dispatchBegin net b = (.error e, d)) ∨
    ∃ addr, d.dispatchBegin net b = (.ok (), d.openUpstream b.streamId addr) ∧
      d.streams.lookup b.streamId = none ∧ size d.streams < d.config.maxStreams := by
  unfold dispatchBegin
  split_ifs with hd hc
  · exact .inl ⟨_, rfl⟩
  · exact .inl ⟨_, rfl⟩
  · cases connectUpstream d.config net b.host with
    | error e => exact .inl ⟨e, rfl⟩
    | ok addr => exact .inr ⟨addr, rfl, by simpa using hd, Nat.not_le.1 hc⟩

lemma dispatchData_cases (b : DataBody) :
    (∃ e, d.dispatchData b = (.error e, d)) ∨
    ∃ u, d.streams.lookup b.streamId = some u ∧ d.dispatchData b =
      (.ok (), d.setUpstream u fun up => { up with written := up.written ++ [b.bytes] }) := by
  unfold dispatchData
  split
  · exact .inl ⟨_, rfl⟩
  rename_i u hu
  split_ifs
  · exact .inr ⟨u, hu, rfl⟩
  · exact .inl ⟨_, rfl⟩

variable {d}

lemma pumpAt_eq_some {u : ℕ} {pump : ReadPump} {up : Upstream} :
    d.pumpAt u pump = some up ↔ d.upstreams[u]? = some up ∧ up.pump = pump := by
  unfold pumpAt
  simp

/-- What a pump or the loop does to the dispatcher. -/
inductive Pumped (d : TcpStreamDispatcher) : TcpStreamDispatcher → Prop
  | idle : Pumped d d
  | read {u : ℕ} {up : Upstream} {bytes : Bytes} (hup : d.upstreams[u]? = some up)
    (hrun : up.pump = .running) (hlisten : d.listening = true) (hne : bytes ≠ [])
    (hlen : bytes.length ≤ readBufferLen) :
    Pumped d ((d.setUpstream u fun up => { up with read := up.read ++ [bytes] }).emit u
      (.data up.streamId bytes))
  | deaf {u : ℕ} (hlisten : d.listening = false) :
    Pumped d (d.setUpstream u fun up => { up with pump := .done })
  | eof {u : ℕ} {up : Upstream} (hup : d.upstreams[u]? = some up) (hrun : up.pump = .running) :
    Pumped d ((d.setUpstream u fun up => { up with pump := .closing }).emit u (.ended up.streamId))
  | remove {u : ℕ} {up : Upstream} (hup : d.upstreams[u]? = some up)
    (hclosing : up.pump = .closing) :
    Pumped d
      { d.setUpstream u fun up => { up with pump := .done } with
        streams := d.streams.erase up.streamId }
  | writeFailed (u : ℕ) : Pumped d (d.setUpstream u fun up => { up with writable := false })

lemma pumped (d : TcpStreamDispatcher) (e : PumpEvent) : Pumped d (d.pump e) := by
  cases e with
  | read u bytes =>
    change Pumped d (d.pumpRead u bytes)
    unfold pumpRead
    split
    · exact .idle
    rename_i up hup
    obtain ⟨hg, hr⟩ := pumpAt_eq_some.1 hup
    split_ifs with hb hl
    · exact .idle
    · rw [not_or] at hb
      exact .read hg hr hl hb.1 (Nat.not_lt.1 hb.2)
    · exact .deaf (by simpa using hl)
  | eof u =>
    change Pumped d (d.pumpEof u)
    unfold pumpEof
    split
    · exact .idle
    · rename_i up hup
      obtain ⟨hg, hr⟩ := pumpAt_eq_some.1 hup
      exact .eof hg hr
  | remove u =>
    change Pumped d (d.pumpRemove u)
    unfold pumpRemove
    split
    · exact .idle
    · rename_i up hup
      obtain ⟨hg, hc⟩ := pumpAt_eq_some.1 hup
      exact .remove hg hc
  | writeFailed u => exact .writeFailed u

/-- The read pump of connection `u` has not finished. -/
def Live (upstreams : List Upstream) (u : ℕ) (id : StreamId) : Prop :=
  ∃ up, upstreams[u]? = some up ∧ up.streamId = id ∧ up.pump ≠ .done

section Live

variable {l : List Upstream} {u v : ℕ} {id : StreamId} {f : Upstream → Upstream}

lemma Live.of_modify (h : Live (l.modify u f) v id) (hid : ∀ up, (f up).streamId = up.streamId)
    (hp : ∀ up, l[u]? = some up → (f up).pump ≠ .done → up.pump ≠ .done) : Live l v id := by
  obtain ⟨up, hup, hs, hd⟩ := h
  rw [getElem?_modify] at hup
  obtain ⟨up₀, hu₀, heq⟩ := map_eq_some_iff.1 hup
  split_ifs at heq with huv
  · subst huv
    subst heq
    exact ⟨up₀, hu₀, (hid up₀).symm.trans hs, hp up₀ hu₀ hd⟩
  · subst heq
    exact ⟨_, hu₀, hs, hd⟩

lemma Live.ne_of_modify (h : Live (l.modify u f) v id) (hp : ∀ up, (f up).pump = .done) :
    v ≠ u := by
  rintro rfl
  obtain ⟨up, hup, -, hd⟩ := h
  rw [getElem?_modify] at hup
  obtain ⟨up₀, -, rfl⟩ := map_eq_some_iff.1 hup
  rw [if_pos rfl] at hd
  exact hd (hp up₀)

lemma Live.of_concat {up : Upstream} (h : Live (l ++ [up]) v id) :
    Live l v id ∨ v = l.length ∧ id = up.streamId := by
  obtain ⟨up', hup, hs, hd⟩ := h
  rcases Nat.lt_trichotomy v l.length with hlt | rfl | hgt
  · rw [getElem?_append_left hlt] at hup
    exact .inl ⟨up', hup, hs, hd⟩
  · rw [getElem?_concat_length, some.injEq] at hup
    subst hup
    exact .inr ⟨rfl, hs.symm⟩
  · rw [getElem?_eq_none (by simp; omega)] at hup
    cases hup

end Live

lemma Pumped.live (h : Pumped d d') {v : ℕ} {id : StreamId} (hl : Live d'.upstreams v id) :
    Live d.upstreams v id := by
  cases h with
  | idle => exact hl
  | read | writeFailed => exact hl.of_modify (fun _ => rfl) fun _ _ hd => hd
  | deaf | remove => exact hl.of_modify (fun _ => rfl) fun _ _ hd => absurd rfl hd
  | eof hup hr =>
    refine hl.of_modify (fun _ => rfl) fun up' hu' _ => ?_
    obtain rfl := some.inj (hup.symm.trans hu')
    simp [hr]

lemma Pumped.config (h : Pumped d d') : d'.config = d.config := by
  cases h <;> rfl

def running (d : TcpStreamDispatcher) : ℕ := d.upstreams.countP fun up => up.pump ≠ .done

/-- The map leads from the id of every running pump to its connection. -/
structure Held (d : TcpStreamDispatcher) : Prop where
  held : ∀ u id, Live d.upstreams u id → d.streams.lookup id = some u
  cap : size d.streams ≤ d.config.maxStreams

lemma Held.running_le (h : Held d) : d.running ≤ d.config.maxStreams := by
  have hc : d.running ≤ size d.streams := by
    refine countP_le_size (f := Upstream.streamId) d.upstreams d.streams fun u up hup hd => ?_
    exact h.held u up.streamId ⟨up, hup, rfl, by simpa using hd⟩
  exact Nat.le_trans hc h.cap

/-- An `END` comes when the read pumps of its id have finished. -/
def EndsFinished (d : TcpStreamDispatcher) : DispatcherEvent → Prop
  | .dispatch _ payload => ∀ id ∈ endId payload, ∀ up ∈ d.upstreams, up.streamId = id →
      up.pump = .done
  | _ => True

instance (d : TcpStreamDispatcher) : DecidablePred (EndsFinished d) := fun _ => by
  unfold EndsFinished
  split
  · exact Option.decidableForallMem _
  · exact isTrue trivial

lemma Held.of_sub (h : Held d) (hs : d'.streams = d.streams) (hc : d'.config = d.config)
    (hlv : ∀ u id, Live d'.upstreams u id → Live d.upstreams u id) : Held d' :=
  ⟨fun u id hl => hs ▸ h.held u id (hlv u id hl), hs ▸ hc ▸ h.cap⟩

lemma Held.openUpstream (h : Held d) {id : StreamId} {addr : IpAddr}
    (hf : d.streams.lookup id = none) (hc : size d.streams < d.config.maxStreams) :
    Held (d.openUpstream id addr) := by
  refine ⟨fun v id' hl => ?_, ?_⟩
  · rcases hl.of_concat with ho | ⟨rfl, rfl⟩
    · have hlk := h.held v id' ho
      have hne : id' ≠ id := by
        rintro rfl
        rw [hf] at hlk
        cases hlk
      exact (AList.lookup_insert_ne hne).trans hlk
    · exact AList.lookup_insert _
  · change size (d.streams.insert id _) ≤ _
    rw [size_insert_of_none hf]
    exact hc

lemma Held.dispatch (h : Held d) (he : EndsFinished d (.dispatch net payload)) :
    Held (d.dispatch net payload).2 := by
  rcases d.dispatch_cases net payload with ⟨-, e, heq⟩ | ⟨b, -, heq⟩ | ⟨b, -, heq⟩ | ⟨b, hb, heq⟩
  · rw [heq]
    exact h
  · rcases d.dispatchBegin_cases net b with ⟨e, hbg⟩ | ⟨addr, hbg, hf, hc⟩
    · rw [heq, hbg]
      exact h
    · rw [heq, hbg]
      exact h.openUpstream hf hc
  · rcases d.dispatchData_cases b with ⟨e, hdt⟩ | ⟨u, -, hdt⟩
    · rw [heq, hdt]
      exact h
    · rw [heq, hdt]
      exact h.of_sub rfl rfl fun v id hl => hl.of_modify (fun _ => rfl) fun _ _ hd => hd
  · rw [heq]
    refine ⟨fun v id hl => ?_, Nat.le_trans size_erase_le h.cap⟩
    obtain ⟨up, hup, hs, hdn⟩ := hl
    have hne : id ≠ b.streamId := by
      rintro rfl
      exact hdn (he b.streamId (by simp [endId, hb]) up (mem_of_getElem? hup) hs)
    exact (AList.lookup_erase_ne hne).trans (h.held v id ⟨up, hup, hs, hdn⟩)

lemma Held.pumped (h : Held d) (hp : Pumped d d') : Held d' := by
  have hlv : ∀ v id, Live d'.upstreams v id → Live d.upstreams v id := fun _ _ => hp.live
  cases hp with
  | idle => exact h
  | read | deaf | eof | writeFailed => exact h.of_sub rfl rfl hlv
  | remove hup hc =>
    rename_i u up
    refine ⟨fun v id hl => ?_, Nat.le_trans size_erase_le h.cap⟩
    have hne := hl.ne_of_modify fun _ => rfl
    have hlk := h.held v id (hlv v id hl)
    have hm := h.held u up.streamId ⟨up, hup, rfl, by simp [hc]⟩
    have hid : id ≠ up.streamId := by
      rintro rfl
      exact hne (some.inj (hlk.symm.trans hm))
    exact (AList.lookup_erase_ne hid).trans hlk

lemma Held.step (e : DispatcherEvent) (h : Held d) (he : EndsFinished d e) : Held (d.step e) := by
  cases e with
  | dispatch net payload => exact h.dispatch he
  | pump e => exact h.pumped (d.pumped e)
  | take | stopListening => exact ⟨h.held, h.cap⟩

lemma dispatch_config : (d.dispatch net payload).2.config = d.config := by
  rcases d.dispatch_cases net payload with ⟨-, e, heq⟩ | ⟨b, -, heq⟩ | ⟨b, -, heq⟩ | ⟨b, hb, heq⟩
  · rw [heq]
  · rcases d.dispatchBegin_cases net b with ⟨e, hbg⟩ | ⟨addr, hbg, -⟩
    · rw [heq, hbg]
    · rw [heq, hbg]
      rfl
  · rcases d.dispatchData_cases b with ⟨e, hd⟩ | ⟨u, -, hd⟩
    · rw [heq, hd]
    · rw [heq, hd]
      rfl
  · rw [heq]
    rfl

lemma step_config (e : DispatcherEvent) : (d.step e).config = d.config := by
  cases e with
  | dispatch net payload => exact dispatch_config
  | pump e => exact (d.pumped e).config
  | take | stopListening => rfl

/-- If an `END` comes when the pumps of its id have finished, at most `max_streams` pumps run. -/
theorem running_le_maxStreams (config : TcpStreamDispatcherConfig) (events : List DispatcherEvent)
    (h : Along step EndsFinished (withConfig config) events) :
    (run step (withConfig config) events).running ≤ config.maxStreams := by
  have hs : Held (withConfig config) := by
    refine ⟨fun u id hl => ?_, Nat.zero_le _⟩
    obtain ⟨up, hup, -⟩ := hl
    cases hup
  have hh := inv_run (fun d e => Held.step e) (withConfig config) events hs h
  have hc : (run step (withConfig config) events).config = config :=
    inv_run (I := fun d : TcpStreamDispatcher => d.config = config)
      (fun d e hd _ => (step_config e).trans hd) _ events rfl (along_true _ events)
  have hle := hh.running_le
  rwa [hc] at hle

def oneHost : Network :=
  ⟨some [.v4 #v[93, 184, 216, 34]], [.v4 #v[93, 184, 216, 34]]⟩

def beginPayload (id : UInt8) : Bytes := [cmdBegin, 0, 6, 0, id, 1, 97, 0, 80]

def endPayload (id : UInt8) : Bytes := [cmdEnd, 0, 2, 0, id]

/-- The `END` frees the entry of the first stream, and its pump goes on beside the second's. -/
theorem running_exceeds_maxStreams :
    (run step (withConfig { default with maxStreams := 1 })
      [.dispatch oneHost (beginPayload 1), .dispatch oneHost (endPayload 1),
        .dispatch oneHost (beginPayload 2)]).running = 2 := by
  decide +kernel

theorem running_le_maxStreams_reopened :
    (run step (withConfig { default with maxStreams := 1 })
      [.dispatch oneHost (beginPayload 1), .pump (.eof 0), .pump (.remove 0),
        .dispatch oneHost (endPayload 1), .dispatch oneHost (beginPayload 2)]).running ≤ 1 := by
  refine running_le_maxStreams { default with maxStreams := 1 } _ ?_
  decide +kernel

end TcpStreamDispatcher

/-! ### Where it connects -/

/-- The address is allowed, by a switch where one is needed. -/
def Permits (config : TcpStreamDispatcherConfig) (ip : IpAddr) : Prop :=
  ipIsAlwaysForbiddenDest ip = false ∧
    (ipIsLoopbackDest ip = true → config.allowLoopbackDestinations = true) ∧
    (ipIsPrivateNetworkDest ip = true → config.allowPrivateDestinations = true)

lemma connectUpstream_permits {config : TcpStreamDispatcherConfig} {net : Network} {host : Bytes}
    {addr : IpAddr} (h : connectUpstream config net host = .ok addr) : Permits config addr := by
  unfold connectUpstream at h
  split_ifs at h
  split at h
  · cases h
  · cases h
  split at h
  · cases h
  rename_i hf
  split at h
  · rename_i ip hip
    cases h
    have hp := find?_eq_none.1 hf addr (mem_of_find?_eq_some hip)
    simp only [ipForbiddenAsDestination] at hp
    split_ifs at hp <;> simp_all [Permits]
  · cases h

namespace TcpStreamDispatcher

variable {d : TcpStreamDispatcher} {u : ℕ} {f : Upstream → Upstream}

def AllPermitted (d : TcpStreamDispatcher) : Prop := ∀ up ∈ d.upstreams, Permits d.config up.addr

lemma AllPermitted.setUpstream (h : d.AllPermitted) (hf : ∀ up, (f up).addr = up.addr) :
    (d.setUpstream u f).AllPermitted := by
  intro up hup
  obtain ⟨i, hi⟩ := mem_iff_getElem?.1 hup
  rw [TcpStreamDispatcher.setUpstream, getElem?_modify] at hi
  obtain ⟨up₀, hu₀, rfl⟩ := map_eq_some_iff.1 hi
  have hp := h up₀ (mem_of_getElem? hu₀)
  split_ifs
  · exact (hf up₀).symm ▸ hp
  · exact hp

lemma AllPermitted.dispatch (h : d.AllPermitted) (net : Network) (payload : Bytes) :
    (d.dispatch net payload).2.AllPermitted := by
  rcases d.dispatch_cases net payload with ⟨-, e, heq⟩ | ⟨b, -, heq⟩ | ⟨b, -, heq⟩ | ⟨b, -, heq⟩
  · rwa [heq]
  · rw [heq, dispatchBegin]
    split_ifs
    · exact h
    · exact h
    split
    · exact h
    · rename_i addr hc
      intro up hup
      rcases mem_append.1 hup with hup | hup
      · exact h up hup
      · obtain rfl := mem_singleton.1 hup
        exact connectUpstream_permits hc
  · rcases d.dispatchData_cases b with ⟨e, hd⟩ | ⟨u, -, hd⟩
    · rwa [heq, hd]
    · rw [heq, hd]
      exact h.setUpstream fun _ => rfl
  · rw [heq]
    exact h

lemma AllPermitted.step (h : d.AllPermitted) (e : DispatcherEvent) : (d.step e).AllPermitted := by
  cases e with
  | dispatch net payload => exact h.dispatch net payload
  | pump e =>
    have hp := d.pumped e
    change (d.pump e).AllPermitted
    generalize d.pump e = d' at hp ⊢
    cases hp with
    | idle => exact h
    | read | deaf | eof | remove | writeFailed => exact h.setUpstream fun _ => rfl
  | take | stopListening => exact h

/-- No connection leads to an address that no switch, or only one that is off, allows. -/
theorem upstreams_permitted (config : TcpStreamDispatcherConfig) (events : List DispatcherEvent) :
    let d := run step (withConfig config) events
    d.config = config ∧ ∀ up ∈ d.upstreams, Permits config up.addr := by
  have h := inv_run (I := fun d : TcpStreamDispatcher => d.config = config ∧ d.AllPermitted)
    (fun d e hd _ => ⟨(step_config e).trans hd.1, hd.2.step e⟩) (withConfig config) events
    ⟨rfl, nofun⟩ (along_true _ _)
  have hp := h.2
  rw [AllPermitted, h.1] at hp
  exact ⟨h.1, hp⟩

end TcpStreamDispatcher

end Mirage.Bridge
