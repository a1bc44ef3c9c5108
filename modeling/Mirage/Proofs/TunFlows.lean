import Mirage.Lib.Runs
import Mirage.Tun.NetStack

/-!
# Flows and connections

A slot and its socket come and go together, but a handle outlives its socket: a command must find
the slot of its flow, or none (`Orderly`).
-/

namespace Mirage.Tun

open Words Maps List AList

/-- What has been done to connections, each flow has had done to its own. -/
structure Separate (log : List Record) : Prop where
  once : ∀ f c c', .emitted f c ∈ log → .emitted f c' ∈ log → c = c'
  sent : ∀ f c data, .sent f c data ∈ log → .emitted f c ∈ log
  closed : ∀ f c, .closed f c ∈ log → .emitted f c ∈ log

/-- The flow was emitted. -/
def Known (log : List Record) (f : ℕ) : Prop := ∃ c, .emitted f c ∈ log

variable {f handle : ℕ} {flow : TcpFlow}

variable {log log' : List Record}

lemma Known.mono (h : Known log f) (hs : log ⊆ log') : Known log' f := by
  obtain ⟨c, hc⟩ := h
  exact ⟨c, hs hc⟩

namespace TcpSocket

variable {s s' : TcpSocket} {c : Option Connection}

/-- The socket is closed or has the connection. -/
def Serves (s : TcpSocket) (c : Option Connection) : Prop :=
  s.state = .closed ∨ s.Synchronized ∧ s.tuple = c

lemma Serves.evolves (h : s.Serves c) (he : s.Evolves s') : s'.Serves c := by
  rcases h with h | ⟨h, rfl⟩
  · exact .inl (he.closed h)
  · exact he.connection h

lemma Serves.congr (h : s.Serves c) (hs : s'.state = s.state) (ht : s'.tuple = s.tuple) :
    s'.Serves c := by
  unfold Serves Synchronized at h ⊢
  rwa [hs, ht]

variable {T : Smoltcp} (lawful : T.Lawful)

include lawful

lemma closed_or_synchronized_close (h : s.state = .closed ∨ s.Synchronized) :
    (T.close s).state = .closed ∨ (T.close s).Synchronized :=
  h.imp (lawful.close s).2.2.1 (lawful.close s).2.2.2

lemma Serves.close (h : s.Serves c) : (T.close s).Serves c := by
  obtain ⟨ht, -, hc, hs⟩ := lawful.close s
  exact h.imp hc fun h => ⟨hs h.1, ht.trans h.2⟩

lemma Serves.tuple (h : s.Serves c) (hs : T.maySend s = true) : s.tuple = c := by
  rcases h with h | h
  · exact absurd h (lawful.maySend s hs).1
  · exact h.2

end TcpSocket

open TcpSocket

/-- From its emission on a flow has one connection, until it is closed. -/
structure SlotOk (log : List Record) (slot : FlowSlot) (s : TcpSocket) : Prop where
  pending : ∀ flow ∈ slot.pendingFlow, flow.reader = slot.readTx
  fresh : slot.emitted = false → ¬ Known log slot.readTx
  serves : ∀ c, .emitted slot.readTx c ∈ log → s.Serves c
  received : s.rx ≠ [] → s.state = .closed ∨ s.Synchronized
  writes : ∀ w ∈ slot.pendingWrite, w.flow = slot.readTx ∧ Known log slot.readTx
  shutdowns : ∀ f ∈ slot.shutdownBy, f = slot.readTx ∧ Known log slot.readTx

lemma SlotOk.mono {slot : FlowSlot} {s : TcpSocket}
    (h : SlotOk log slot s) (hs : log ⊆ log')
    (ho : ∀ c, .emitted slot.readTx c ∈ log' → .emitted slot.readTx c ∈ log) :
    SlotOk log' slot s where
  pending := h.pending
  fresh he hk := h.fresh he ⟨_, ho _ hk.choose_spec⟩
  serves c hc := h.serves c (ho c hc)
  received := h.received
  writes w hw := ⟨(h.writes w hw).1, (h.writes w hw).2.mono hs⟩
  shutdowns f hf := ⟨(h.shutdowns f hf).1, (h.shutdowns f hf).2.mono hs⟩

lemma SlotOk.of_state {slot : FlowSlot} {s s' : TcpSocket} (h : SlotOk log slot s)
    (hs : s'.state = s.state) (ht : s'.tuple = s.tuple) (hr : s'.rx ≠ [] → s.rx ≠ []) :
    SlotOk log slot s' where
  pending := h.pending
  fresh := h.fresh
  serves c hc := (h.serves c hc).congr hs ht
  received hx := by
    unfold Synchronized
    rw [hs]
    exact h.received (hr hx)
  writes := h.writes
  shutdowns := h.shutdowns

namespace Visit

variable {T : Smoltcp} {cfg : NetStackConfig} {v v' v'' : Visit}

/-- What serving a socket keeps. -/
structure Ok (v : Visit) : Prop where
  separate : Separate v.log
  slot : SlotOk v.log v.slot v.socket
  queued : ∀ flow, .tcp flow ∈ v.flowTx → Known v.log flow.reader

/-- The socket was served, and only its own flow was emitted. -/
structure Serves (v v' : Visit) : Prop where
  ok : v'.Ok
  number : v'.slot.readTx = v.slot.readTx
  grows : v.log ⊆ v'.log
  only : ∀ f c, .emitted f c ∈ v'.log → .emitted f c ∈ v.log ∨ f = v.slot.readTx

lemma Serves.refl (h : v.Ok) : Serves v v := ⟨h, rfl, fun _ h => h, fun _ _ => .inl⟩

lemma Serves.trans (h : Serves v v') (h' : Serves v' v'') : Serves v v'' where
  ok := h'.ok
  number := h'.number.trans h.number
  grows := List.Subset.trans h.grows h'.grows
  only f c hc := by
    rcases h'.only f c hc with hc | hf
    · exact h.only f c hc
    · exact .inr (hf.trans h.number)

lemma Serves.andThen (h : Serves v v') (h' : v'.Ok → Serves v' v'') : Serves v v'' :=
  h.trans (h' h.ok)

/-- The record is of the flow's own connection. -/
def Own (log : List Record) : Record → Prop
  | .emitted _ _ => False
  | .sent f c _ => .emitted f c ∈ log
  | .closed f c => .emitted f c ∈ log

lemma Ok.serves (h : v.Ok) {rs : List Record} (hl : v'.log = v.log ++ rs)
    (hrs : ∀ r ∈ rs, Own v.log r) (hf : v'.flowTx = v.flowTx) (hn : v'.slot.readTx = v.slot.readTx)
    (hsl : SlotOk v.log v'.slot v'.socket) : Serves v v' := by
  have hsb : v.log ⊆ v'.log := by
    rw [hl]
    exact subset_append_left _ _
  have he {f : ℕ} {c : Option Connection} (hc : .emitted f c ∈ v'.log) :
      .emitted f c ∈ v.log := by
    rw [hl, mem_append] at hc
    rcases hc with hc | hc
    · exact hc
    · exact (hrs _ hc).elim
  refine ⟨⟨⟨fun f c c' hc hc' => h.separate.once f c c' (he hc) (he hc'), ?_, ?_⟩,
    hsl.mono hsb fun c hc => he hc, ?_⟩, hn, hsb, fun f c hc => .inl (he hc)⟩
  · intro f c data hs
    rw [hl, mem_append] at hs
    rcases hs with hs | hs
    · exact hsb (h.separate.sent f c data hs)
    · exact hsb (hrs _ hs)
  · intro f c hs
    rw [hl, mem_append] at hs
    rcases hs with hs | hs
    · exact hsb (h.separate.closed f c hs)
    · exact hsb (hrs _ hs)
  · rw [hf]
    exact fun flow hq => (h.queued flow hq).mono hsb

lemma signalEof_serves (h : v.Ok) : Serves v (v.signalEof T cfg) := by
  rw [signalEof]
  split_ifs
  · exact h.serves (append_nil _).symm nofun rfl rfl ⟨h.slot.pending, h.slot.fresh, h.slot.serves,
      h.slot.received, h.slot.writes, h.slot.shutdowns⟩
  · exact .refl h

section

variable (lawful : T.Lawful)

include lawful

lemma emit_serves (h : v.Ok) : Serves v (v.emit T cfg) := by
  rw [emit]
  split
  · exact .refl h
  rename_i flow hfl
  split_ifs with hrd hrm ho
  · -- The flow goes out, and its connection is on record.
    simp only [Bool.and_eq_true, Bool.or_eq_true, Bool.not_eq_true'] at hrd
    have hn := h.slot.pending flow hfl
    have hfr : ¬ Known v.log flow.reader := by
      rw [hn]
      exact h.slot.fresh hrd.2
    have hm {f : ℕ} {c : Option Connection} :
        Record.emitted f c ∈ v.log ++ [.emitted flow.reader v.socket.tuple] ↔
          .emitted f c ∈ v.log ∨ f = flow.reader ∧ c = v.socket.tuple := by
      simp
    have hsb : v.log ⊆ v.log ++ [.emitted flow.reader v.socket.tuple] :=
      subset_append_left _ _
    have hsy : v.socket.state = .closed ∨ v.socket.Synchronized := by
      rcases hrd.1 with hs | hr
      · exact .inr (lawful.maySend _ hs)
      · rcases lawful.mayRecv _ hr with hr | hr
        · exact .inr hr
        · exact h.slot.received hr
    refine ⟨⟨⟨?_, ?_, ?_⟩, ⟨nofun, nofun, ?_, h.slot.received, ?_, ?_⟩, ?_⟩, rfl, hsb, ?_⟩
    · intro f c c' hc hc'
      rw [hm] at hc hc'
      rcases hc with hc | ⟨rfl, rfl⟩
      · rcases hc' with hc' | ⟨rfl, rfl⟩
        · exact h.separate.once f c c' hc hc'
        · exact absurd ⟨c, hc⟩ hfr
      · rcases hc' with hc' | ⟨-, rfl⟩
        · exact absurd ⟨c', hc'⟩ hfr
        · rfl
    · intro f c data hs
      exact hsb (h.separate.sent f c data (by simpa using hs))
    · intro f c hs
      exact hsb (h.separate.closed f c (by simpa using hs))
    · intro c hc
      rcases hm.1 hc with hc | ⟨-, rfl⟩
      · exact h.slot.serves c hc
      · exact hsy.imp_right fun hs => ⟨hs, rfl⟩
    · exact fun w hw => ⟨(h.slot.writes w hw).1, (h.slot.writes w hw).2.mono hsb⟩
    · exact fun f hf => ⟨(h.slot.shutdowns f hf).1, (h.slot.shutdowns f hf).2.mono hsb⟩
    · intro flow' hq
      rcases mem_append.1 hq with hq | hq
      · exact (h.queued flow' hq).mono hsb
      · simp only [mem_singleton, Flow.tcp.injEq] at hq
        subst hq
        exact ⟨v.socket.tuple, hm.2 (.inr ⟨rfl, rfl⟩)⟩
    · intro f c hc
      rcases hm.1 hc with hc | ⟨rfl, -⟩
      · exact .inl hc
      · exact .inr hn
  · exact .refl h
  · have ha := lawful.abort v.socket
    exact ⟨⟨h.separate, ⟨nofun, nofun, fun _ _ => .inl ha, fun _ => .inl ha, h.slot.writes,
      h.slot.shutdowns⟩, h.queued⟩, rfl, fun _ h => h, fun _ _ => .inl⟩
  · exact .refl h

lemma drainReceived_serves : ∀ fuel v, v.Ok →
    Serves v (v.drainReceived T cfg fuel)
  | 0, _, h => .refl h
  | fuel + 1, v, h => by
    rw [drainReceived]
    split_ifs
    · obtain ⟨hst, ht, hr⟩ := lawful.recvSlice v.socket (8 * 1024)
      have hs : Serves v { v with
          socket := (T.recvSlice v.socket (8 * 1024)).2
          channel := v.channel.send (T.recvSlice v.socket (8 * 1024)).1 } :=
        h.serves (append_nil _).symm nofun rfl rfl (h.slot.of_state hst ht hr)
      exact hs.trans (drainReceived_serves fuel _ hs.ok)
    · exact .refl h

lemma sendFront_serves (h : v.Ok) (hs : T.canSend v.socket = true) {front : PendingWrite}
    {rest : List PendingWrite} (hp : v.slot.pendingWrite = front :: rest) :
    Serves v (v.sendFront T front rest).2 := by
  obtain ⟨hf, c, hc⟩ := h.slot.writes front (hp ▸ mem_cons_self)
  have ht : v.socket.tuple = c := (h.slot.serves c hc).tuple lawful (lawful.canSend _ hs)
  obtain ⟨hst, htp, hrx⟩ := lawful.sendSlice v.socket front.data
  have hok := h.slot.of_state hst htp fun hr => hrx ▸ hr
  refine h.serves rfl (fun r hr => ?_) rfl rfl ⟨hok.pending, hok.fresh, hok.serves,
    hok.received, fun w hw => ?_, hok.shutdowns⟩
  · obtain rfl := mem_singleton.1 hr
    rw [hf, ht]
    exact hc
  have hrs : ∀ w ∈ rest, w.flow = v.slot.readTx ∧ Known v.log v.slot.readTx := fun w hw =>
    h.slot.writes w (hp ▸ mem_cons_of_mem _ hw)
  simp only [sendFront] at hw
  split_ifs at hw
  · exact hrs w hw
  · rcases mem_cons.1 hw with rfl | hw
    · exact ⟨hf, c, hc⟩
    · exact hrs w hw

lemma pumpWrites_serves : ∀ fuel v, v.Ok → Serves v (v.pumpWrites T fuel).2
  | 0, _, h => .refl h
  | fuel + 1, v, h => by
    rw [pumpWrites]
    split_ifs with hsn
    · split
      · exact .refl h
      · rename_i front rest hp
        have hs := sendFront_serves lawful h hsn hp
        simp only
        split_ifs
        · exact .refl h
        · exact hs.trans (pumpWrites_serves fuel _ hs.ok)
    · exact .refl h

lemma halfClose_serves (h : v.Ok) : Serves v (v.halfClose T) := by
  obtain ⟨-, hrx, hcl, -⟩ := lawful.close v.socket
  have hok : SlotOk v.log v.slot (T.close v.socket) :=
    { h.slot with
      serves := fun c hc => (h.slot.serves c hc).close lawful
      received := fun hr => closed_or_synchronized_close lawful (h.slot.received (hrx ▸ hr)) }
  rw [halfClose]
  split_ifs with ha hs
  · exact h.serves (append_nil _).symm nofun rfl rfl hok
  · -- The socket had a connection, so it is the flow's.
    refine h.serves rfl (fun r hr => ?_) rfl rfl hok
    obtain ⟨f, hf, rfl⟩ := mem_map.1 hr
    obtain ⟨rfl, c, hc⟩ := h.slot.shutdowns f hf
    rcases h.slot.serves c hc with hst | ⟨-, ht⟩
    · exact absurd ((hcl hst).trans hst.symm) hs
    · rw [ht]
      exact hc
  · exact .refl h

lemma abandon_serves (h : v.Ok) : Serves v (v.abandon T) := by
  rw [abandon]
  split_ifs
  · have ha := lawful.abort v.socket
    exact h.serves (append_nil _).symm nofun rfl rfl ⟨h.slot.pending, h.slot.fresh,
      fun _ _ => .inl ha, fun _ => .inl ha, h.slot.writes, h.slot.shutdowns⟩
  · exact .refl h

end

end Visit

variable {T : Smoltcp} {cfg : NetStackConfig}

lemma serve_serves (lawful : T.Lawful) {v : Visit} (h : v.Ok) :
    v.Serves (NetStack.serve T cfg v).2 := by
  simp only [NetStack.serve]
  refine .andThen ?_ (Visit.abandon_serves lawful)
  refine .andThen ?_ (Visit.halfClose_serves lawful)
  refine .andThen ?_ (Visit.pumpWrites_serves lawful _ _)
  refine .andThen ?_ Visit.signalEof_serves
  exact (Visit.emit_serves lawful h).andThen (Visit.drainReceived_serves lawful _ _)

namespace NetStack

/-- Slots and sockets come and go together. -/
structure Tables (sockets : SocketSet) (flows : AList fun _ : ℕ => FlowSlot)
    (udpSockets : AList fun _ : SocketAddr => ℕ) (nextReader : ℕ) (log : List Record) : Prop where
  separate : Separate log
  slots : ∀ handle slot, flows.lookup handle = some slot →
    ∃ s, sockets.lookup handle = some (.tcp s) ∧ SlotOk log slot s
  numbers : ∀ handle slot, flows.lookup handle = some slot → slot.readTx < nextReader
  distinct : ∀ handle handle' slot slot', flows.lookup handle = some slot →
    flows.lookup handle' = some slot' → slot.readTx = slot'.readTx → handle = handle'
  records : ∀ f, Known log f → f < nextReader
  udp : ∀ dst handle, udpSockets.lookup dst = some handle →
    ∃ s, sockets.lookup handle = some (.udp s)
  udpDistinct : ∀ dst dst' handle, udpSockets.lookup dst = some handle →
    udpSockets.lookup dst' = some handle → dst = dst'

/-- The command is of a flow that was emitted. -/
def CmdOk (log : List Record) : StackCmd → Prop
  | .data _ _ f => Known log f
  | .shutdown _ f => Known log f
  | .udpData _ _ _ => True

/-- The callers have flows that were emitted. -/
structure Callers (flowTx : List Flow) (heldTcp : AList fun _ : ℕ => TcpFlow)
    (cmdTx udpCmdTx : List StackCmd) (log : List Record) : Prop where
  queued : ∀ flow, .tcp flow ∈ flowTx → Known log flow.reader
  held : ∀ f flow, heldTcp.lookup f = some flow → Known log flow.reader
  cmds : ∀ cmd ∈ cmdTx, CmdOk log cmd
  udpCmds : ∀ cmd ∈ udpCmdTx, ∃ dst src data, cmd = .udpData dst src data

structure Inv (n : NetStack) : Prop extends
  Tables n.sockets n.flows n.udpSockets n.nextReader n.log,
  Callers n.flowTx n.heldTcp n.cmdTx n.udpCmdTx n.log

variable {P : Parsers} {n : NetStack}

lemma inv_new : Inv new where
  separate := ⟨nofun, nofun, nofun⟩
  slots _ _ h := by simp [new] at h
  numbers _ _ h := by simp [new] at h
  distinct _ _ _ _ h := by simp [new] at h
  records f h := by obtain ⟨c, hc⟩ := h; simp [new] at hc
  udp _ _ h := by simp [new] at h
  udpDistinct _ _ _ h := by simp [new] at h
  queued _ h := by simp [new] at h
  held _ _ h := by simp [new] at h
  cmds _ h := by simp [new] at h
  udpCmds _ h := by simp [new] at h

lemma inv_poll (h : Inv n) {sockets : SocketSet} (he : n.sockets.Evolves sockets) :
    Inv { n with sockets := sockets, rx := [] } := by
  refine ⟨⟨h.separate, ?_, h.numbers, h.distinct, h.records, ?_, h.udpDistinct⟩, h.toCallers⟩
  · intro handle slot hsl
    obtain ⟨s, hs, hok⟩ := h.slots handle slot hsl
    have hr := he handle
    rw [hs] at hr
    generalize sockets.lookup handle = o at hr ⊢
    cases hr with
    | @some _ socket hev =>
      cases socket with
      | udp s' => exact hev.elim
      | tcp s' =>
        refine ⟨s', rfl, hok.pending, hok.fresh, fun c hc => (hok.serves c hc).evolves hev,
          hev.received, hok.writes, hok.shutdowns⟩
  · intro dst handle hu
    obtain ⟨s, hs⟩ := h.udp dst handle hu
    have hr := he handle
    rw [hs] at hr
    generalize sockets.lookup handle = o at hr ⊢
    cases hr with
    | @some _ socket hev =>
      cases socket with
      | tcp s' => exact hev.elim
      | udp s' => exact ⟨s', rfl⟩

lemma Inv.visited (h : Inv n) {slot : FlowSlot} {socket : TcpSocket} {v : Visit}
    (hsl : n.flows.lookup handle = some slot)
    (hsk : n.sockets.lookup handle = some (.tcp socket)) (hv : (n.visit slot socket).Serves v)
    {n' : NetStack} (hfw : ∀ i, i ≠ handle → n'.flows.lookup i = n.flows.lookup i)
    (hsc : ∀ i, i ≠ handle → n'.sockets.lookup i = n.sockets.lookup i)
    (hat : ∀ slot', n'.flows.lookup handle = some slot' →
      slot' = v.slot ∧ n'.sockets.lookup handle = some (.tcp v.socket)) (hl : n'.log = v.log)
    (hfl : n'.flowTx = v.flowTx) (hnx : n'.nextReader = n.nextReader)
    (hud : n'.udpSockets = n.udpSockets) (hh : n'.heldTcp = n.heldTcp)
    (hcm : n'.cmdTx = n.cmdTx) (hu : n'.udpCmdTx = n.udpCmdTx) : Inv n' := by
  have hn : v.slot.readTx = slot.readTx := hv.number
  have hcs : ∀ i slot', n'.flows.lookup i = some slot' →
      i = handle ∧ slot' = v.slot ∨ i ≠ handle ∧ n.flows.lookup i = some slot' := by
    intro i slot' hi
    by_cases hne : i = handle
    · subst hne
      exact .inl ⟨rfl, (hat slot' hi).1⟩
    · rw [hfw i hne] at hi
      exact .inr ⟨hne, hi⟩
  have hk {f : ℕ} (hf : Known n.log f) : Known n'.log f := by
    rw [hl]
    exact hf.mono hv.grows
  refine ⟨⟨hl ▸ hv.ok.separate, ?_, ?_, ?_, ?_, ?_, hud ▸ h.udpDistinct⟩, ⟨?_, ?_, ?_, ?_⟩⟩
  · intro i slot' hi
    rcases hcs i slot' hi with ⟨rfl, rfl⟩ | ⟨hne, hi'⟩
    · exact ⟨v.socket, (hat v.slot hi).2, hl ▸ hv.ok.slot⟩
    obtain ⟨s, hs, hok⟩ := h.slots i slot' hi'
    refine ⟨s, by rw [hsc i hne, hs], ?_⟩
    rw [hl]
    refine hok.mono hv.grows fun c hc => ?_
    rcases hv.only _ c hc with hc | heq
    · exact hc
    · exact absurd (h.distinct i handle slot' slot hi' hsl heq) hne
  · intro i slot' hi
    rw [hnx]
    rcases hcs i slot' hi with ⟨rfl, rfl⟩ | ⟨-, hi'⟩
    · rw [hn]
      exact h.numbers i slot hsl
    · exact h.numbers i slot' hi'
  · intro i j slot₁ slot₂ hi hj heq
    rcases hcs i slot₁ hi with ⟨rfl, rfl⟩ | ⟨-, hi'⟩
    · rcases hcs j slot₂ hj with ⟨rfl, rfl⟩ | ⟨-, hj'⟩
      · rfl
      · exact h.distinct i j slot slot₂ hsl hj' (hn.symm.trans heq)
    · rcases hcs j slot₂ hj with ⟨rfl, rfl⟩ | ⟨-, hj'⟩
      · exact h.distinct i j slot₁ slot hi' hsl (heq.trans hn)
      · exact h.distinct i j slot₁ slot₂ hi' hj' heq
  · rintro f ⟨c, hc⟩
    rw [hl] at hc
    rw [hnx]
    rcases hv.only f c hc with hc | rfl
    · exact h.records f ⟨c, hc⟩
    · exact h.numbers handle slot hsl
  · intro dst i hi
    rw [hud] at hi
    obtain ⟨s, hs⟩ := h.udp dst i hi
    have hne : i ≠ handle := ne_of_apply_ne n.sockets.lookup (by simp [hs, hsk])
    exact ⟨s, by rw [hsc i hne, hs]⟩
  · rw [hfl, hl]
    exact hv.ok.queued
  · rw [hh]
    exact fun f flow hf => hk (h.held f flow hf)
  · rw [hcm]
    intro cmd hc
    have := h.cmds cmd hc
    cases cmd with
    | data _ _ f | shutdown _ f => exact hk this
    | udpData => trivial
  · rw [hu]
    exact h.udpCmds

lemma inv_serviceSocket (lawful : T.Lawful) (h : Inv n) : Inv (n.serviceSocket T cfg handle) := by
  rw [serviceSocket]
  split
  · rename_i slot socket hsl hsc
    obtain ⟨s, hs, hok⟩ := h.slots handle slot hsl
    rw [hsc] at hs
    cases hs
    have hv : (n.visit slot socket).Serves (serve T cfg (n.visit slot socket)).2 :=
      serve_serves lawful ⟨h.separate, hok, h.queued⟩
    generalize serve T cfg (n.visit slot socket) = r at hv
    simp only [settle]
    split_ifs
    · refine h.visited hsl hsc hv (fun i hi => lookup_erase_ne hi)
        (fun i hi => lookup_erase_ne hi) (fun slot' hs => ?_) rfl rfl rfl rfl rfl rfl rfl
      simp only [lookup_erase, reduceCtorEq] at hs
    · refine h.visited hsl hsc hv (fun i hi => lookup_insert_ne hi)
        (fun i hi => lookup_insert_ne hi) (fun slot' hs => ?_) rfl rfl rfl rfl rfl rfl rfl
      rw [lookup_insert, Option.some.injEq] at hs
      exact ⟨hs.symm, lookup_insert _⟩
  · exact h

lemma inv_openListener (h : Inv n) (key : FlowKey) (hfr : handle ∉ n.sockets) :
    Inv (n.openListener cfg key handle) := by
  rw [openListener]
  split_ifs
  · exact h
  have hno (s : Socket) : n.sockets.lookup handle ≠ some s := by simp [lookup_eq_none.2 hfr]
  have hn : ¬ Known n.log n.nextReader := fun hk => (h.records _ hk).false
  refine ⟨⟨h.separate, ?_, ?_, ?_, fun f hf => (h.records f hf).trans (Nat.lt_succ_self _), ?_,
    h.udpDistinct⟩, h.toCallers⟩
  · intro i slot hi
    rcases lookup_of_insert hi with ⟨rfl, rfl⟩ | hi'
    · refine ⟨_, lookup_insert _, ?_, fun _ => hn, fun c hc => absurd ⟨c, hc⟩ hn, ?_, nofun, nofun⟩
      · rintro flow ⟨⟩
        rfl
      · exact fun hrx => absurd rfl hrx
    · obtain ⟨s, hs, hok⟩ := h.slots i slot hi'
      exact ⟨s, lookup_insert_other (hno _) hs, hok⟩
  · intro i slot hi
    rcases lookup_of_insert hi with ⟨rfl, rfl⟩ | hi'
    · exact Nat.lt_succ_self _
    · exact (h.numbers i slot hi').trans (Nat.lt_succ_self _)
  · intro i j slot slot' hi hj heq
    rcases lookup_of_insert hi with ⟨rfl, rfl⟩ | hi'
    · rcases lookup_of_insert hj with ⟨rfl, rfl⟩ | hj'
      · rfl
      · exact absurd (h.numbers j slot' hj') (Nat.not_lt.2 heq.le)
    · rcases lookup_of_insert hj with ⟨rfl, rfl⟩ | hj'
      · exact absurd (h.numbers i slot hi') (Nat.not_lt.2 heq.ge)
      · exact h.distinct i j slot slot' hi' hj' heq
  · intro dst i hi
    obtain ⟨s, hs⟩ := h.udp dst i hi
    exact ⟨s, lookup_insert_other (hno _) hs⟩

lemma Inv.slot (h : Inv n) {slot slot' : FlowSlot} (hsl : n.flows.lookup handle = some slot)
    (hn : slot'.readTx = slot.readTx) (hok : ∀ s, SlotOk n.log slot s → SlotOk n.log slot' s)
    (bytes : ℕ) :
    Inv { n with pendingWriteBytes := bytes, flows := n.flows.insert handle slot' } := by
  obtain ⟨socket, hsc, hs⟩ := h.slots handle slot hsl
  have hv : (n.visit slot socket).Serves { n.visit slot socket with slot := slot' } :=
    ⟨⟨h.separate, hok socket hs, h.queued⟩, hn, fun _ hr => hr, fun _ _ => .inl⟩
  refine h.visited hsl hsc hv (fun i hi => lookup_insert_ne hi) (fun _ _ => rfl)
    (fun slot₁ h₁ => ?_) rfl rfl rfl rfl rfl rfl rfl
  rw [lookup_insert, Option.some.injEq] at h₁
  exact ⟨h₁.symm, hsc⟩

/-- The handle of the command has the slot of its flow, or none. -/
def CmdOwn (n : NetStack) : StackCmd → Prop
  | .data handle _ f => ∀ slot ∈ n.flows.lookup handle, slot.readTx = f
  | .shutdown handle f => ∀ slot ∈ n.flows.lookup handle, slot.readTx = f
  | .udpData _ _ _ => True

lemma Inv.slots_of (h : Inv n) {sockets : SocketSet}
    (hk : ∀ i s, n.sockets.lookup i = some (.tcp s) → sockets.lookup i = some (.tcp s)) (i : ℕ)
    (slot : FlowSlot) (hi : n.flows.lookup i = some slot) :
    ∃ s, sockets.lookup i = some (.tcp s) ∧ SlotOk n.log slot s := by
  obtain ⟨s, hs, hok⟩ := h.slots i slot hi
  exact ⟨s, hk i s hs, hok⟩

lemma Inv.udpSocket (h : Inv n) {s : UdpSocket} (hs : n.sockets.lookup handle = some (.udp s))
    (s' : UdpSocket) : Inv { n with sockets := n.sockets.insert handle (.udp s') } := by
  refine ⟨⟨h.separate, h.slots_of fun i t => ?_, h.numbers, h.distinct, h.records, ?_,
    h.udpDistinct⟩, h.toCallers⟩
  · exact lookup_insert_other (by simp [hs])
  · intro dst i hi
    rw [lookup_insert_eq_ite]
    split_ifs
    · exact ⟨s', rfl⟩
    · exact h.udp dst i hi

lemma inv_applyCmd (h : Inv n) {cmd : StackCmd} (hc : CmdOk n.log cmd) (ho : CmdOwn n cmd)
    (fits : Bool) (now : ℕ) : Inv (n.applyCmd fits now cmd) := by
  cases cmd with
  | data handle data f =>
    simp only [applyCmd]
    split
    · exact h
    rename_i slot hsl
    refine h.slot hsl ?_ (fun s hok => ?_) _
    · rfl
    refine ⟨hok.pending, hok.fresh, hok.serves, hok.received, fun w hw => ?_, hok.shutdowns⟩
    rcases mem_append.1 hw with hw | hw
    · exact hok.writes w hw
    · obtain rfl := mem_singleton.1 hw
      have hf := ho slot hsl
      exact ⟨hf.symm, hf ▸ hc⟩
  | shutdown handle f =>
    simp only [applyCmd]
    split
    · exact h
    rename_i slot hsl
    refine h.slot hsl ?_ (fun s hok => ?_) _
    · rfl
    refine ⟨hok.pending, hok.fresh, hok.serves, hok.received, hok.writes, fun g hg => ?_⟩
    rcases mem_cons.1 hg with rfl | hg
    · have hf := ho slot hsl
      exact ⟨hf.symm, hf ▸ hc⟩
    · exact hok.shutdowns g hg
  | udpData dst src data =>
    simp only [applyCmd]
    split
    · exact h
    rename_i handle hh
    obtain ⟨s, hs⟩ := h.udp dst handle hh
    simp only [hs]
    have h' : Inv (if fits = true then { n with
        sockets := n.sockets.insert handle (.udp { s with tx := s.tx ++ [(src, data)] }) }
        else n) := by
      split_ifs
      · exact h.udpSocket hs _
      · exact h
    split
    · exact h'
    · exact ⟨h'.toTables, h'.toCallers⟩

lemma inv_takeCmd (h : Inv n) (now : ℕ) (ho : ∀ cmd ∈ n.cmdTx.head?, CmdOwn n cmd) :
    Inv (n.takeCmd cfg now) := by
  rw [takeCmd]
  split
  · exact h
  rename_i cmd cmds hcm
  rw [hcm] at ho
  split_ifs
  · have h' : Inv { n with cmdTx := cmds } :=
      ⟨h.toTables, ⟨h.queued, h.held, fun c hc => h.cmds c (hcm ▸ mem_cons_of_mem _ hc), h.udpCmds⟩⟩
    exact inv_applyCmd h' (h.cmds cmd (hcm ▸ mem_cons_self)) (ho cmd rfl) false now
  · exact h

lemma inv_takeUdpCmd (h : Inv n) (fits : Bool) (now : ℕ) : Inv (n.takeUdpCmd fits now) := by
  rw [takeUdpCmd]
  split
  · exact h
  rename_i cmd cmds hcm
  obtain ⟨dst, src, data, rfl⟩ := h.udpCmds cmd (hcm ▸ mem_cons_self)
  have h' : Inv { n with udpCmdTx := cmds } :=
    ⟨h.toTables, ⟨h.queued, h.held, h.cmds, fun c hc => h.udpCmds c (hcm ▸ mem_cons_of_mem _ hc)⟩⟩
  exact inv_applyCmd h' (show CmdOk _ (.udpData dst src data) from trivial) trivial fits now

lemma inv_removeUdpSocket (h : Inv n) (dst : SocketAddr) : Inv (n.removeUdpSocket dst) := by
  rw [removeUdpSocket]
  split
  · exact h
  rename_i handle hh
  obtain ⟨t, ht⟩ := h.udp dst handle hh
  refine ⟨⟨h.separate, h.slots_of fun i s => ?_, h.numbers, h.distinct, h.records, ?_, ?_⟩,
    h.toCallers⟩
  · exact lookup_erase_other (by simp [ht])
  · intro dst' i hi
    have hi' := lookup_of_erase hi
    obtain ⟨s, hs⟩ := h.udp dst' i hi'
    have hne : i ≠ handle := by
      rintro rfl
      obtain rfl := h.udpDistinct dst' dst i hi' hh
      simp only [lookup_erase, reduceCtorEq] at hi
    exact ⟨s, by rw [lookup_erase_ne hne, hs]⟩
  · intro d d' i hd hd'
    exact h.udpDistinct d d' i (lookup_of_erase hd) (lookup_of_erase hd')

lemma inv_emitUdpFlow (h : Inv n) (key : FlowKey) {created : Bool}
    (hh : n.udpSockets.lookup key.dst = some handle) (now : ℕ) :
    Inv (n.emitUdpFlow cfg key handle created now) := by
  rw [emitUdpFlow]
  split_ifs
  · refine ⟨⟨h.separate, h.slots, fun i slot hi => ?_, h.distinct, fun f hf => ?_, h.udp,
      h.udpDistinct⟩, ⟨fun flow hq => ?_, h.held, h.cmds, h.udpCmds⟩⟩
    · exact (h.numbers i slot hi).trans (Nat.lt_succ_self _)
    · exact (h.records f hf).trans (Nat.lt_succ_self _)
    · exact h.queued flow (by simpa using hq)
  · have h' := inv_removeUdpSocket h key.dst
    simp only [removeUdpSocket, hh] at h'
    exact h'
  · exact h

lemma inv_openUdpFlow (h : Inv n) (key : FlowKey) (hf : handle ∉ n.sockets) (now : ℕ) :
    Inv (n.openUdpFlow cfg key handle now) := by
  have hno (s : Socket) : n.sockets.lookup handle ≠ some s := by simp [lookup_eq_none.2 hf]
  rw [openUdpFlow]
  split
  · rename_i ha' hh
    exact inv_emitUdpFlow h key hh now
  split_ifs
  · exact h
  have h' : Inv { n with
      sockets := n.sockets.insert handle (.udp ⟨key.dst, [], []⟩)
      udpSockets := n.udpSockets.insert key.dst handle } := by
    have hn (d : SocketAddr) (hd : n.udpSockets.lookup d = some handle) : False := by
      obtain ⟨s, hs⟩ := h.udp d handle hd
      exact hno _ hs
    refine ⟨⟨h.separate, h.slots_of fun i s => lookup_insert_other (hno _), h.numbers, h.distinct,
      h.records, ?_, ?_⟩, h.toCallers⟩
    · intro dst i hi
      rcases lookup_of_insert hi with ⟨rfl, rfl⟩ | hi'
      · exact ⟨_, lookup_insert _⟩
      · obtain ⟨s, hs⟩ := h.udp dst i hi'
        exact ⟨s, lookup_insert_other (hno _) hs⟩
    · intro d d' i hd hd'
      rcases lookup_of_insert hd with ⟨rfl, rfl⟩ | hd₁
      · rcases lookup_of_insert hd' with ⟨rfl, -⟩ | hd₂
        · rfl
        · exact (hn d' hd₂).elim
      · rcases lookup_of_insert hd' with ⟨rfl, rfl⟩ | hd₂
        · exact (hn d hd₁).elim
        · exact h.udpDistinct d d' i hd₁ hd₂
  exact inv_emitUdpFlow h' key (lookup_insert _) now

lemma inv_ingestPacket (h : Inv n) (pkt : Bytes) (hf : handle ∉ n.sockets) (now : ℕ) :
    Inv (n.ingestPacket P cfg pkt handle now) := by
  have hrx {n : NetStack} (h : Inv n) : Inv { n with rx := n.rx ++ [pkt] } :=
    ⟨h.toTables, h.toCallers⟩
  refine hrx ?_
  split
  · exact h
  split
  · split_ifs
    · exact inv_openListener h _ hf
    · exact h
  · split_ifs
    · exact inv_openUdpFlow h _ hf now
    · exact h

lemma inv_routeDatagram (h : Inv n) (dst : SocketAddr) (now : ℕ) (dg : SocketAddr × Bytes) :
    Inv (n.routeDatagram cfg dst now dg) := by
  rw [routeDatagram]
  split
  · exact h
  · simp only
    split_ifs <;> exact ⟨h.toTables, h.toCallers⟩

lemma inv_foldl {α : Type*} {f : NetStack → α → NetStack} (hf : ∀ n a, Inv n → Inv (f n a)) :
    ∀ (l : List α) {n : NetStack}, Inv n → Inv (l.foldl f n)
  | [], _, h => h
  | a :: l, n, h => inv_foldl hf l (hf n a h)

lemma inv_serviceUdp (h : Inv n) (now : ℕ) : Inv (n.serviceUdp cfg now) := by
  refine inv_foldl (fun n entry h => ?_) _ h
  rw [serviceUdpSocket]
  split
  · rename_i s hs
    exact inv_foldl (fun n dg h => inv_routeDatagram h _ now dg) _ (h.udpSocket hs _)
  · exact h

lemma inv_reapIdleUdp (h : Inv n) (now : ℕ) : Inv (n.reapIdleUdp cfg now) := by
  rw [reapIdleUdp]
  split_ifs
  · exact h
  · exact inv_foldl (fun n dst h => inv_removeUdpSocket h dst) _ ⟨h.toTables, h.toCallers⟩

lemma inv_acceptFlow (h : Inv n) : Inv n.acceptFlow := by
  rw [acceptFlow]
  split
  · exact h
  · rename_i flow flows hfl
    refine ⟨h.toTables, fun f hf => h.queued f (hfl ▸ mem_cons_of_mem _ hf), ?_, h.cmds, h.udpCmds⟩
    intro f flow' hf
    rcases lookup_of_insert hf with ⟨-, rfl⟩ | hf
    · exact h.queued flow' (hfl ▸ mem_cons_self)
    · exact h.held f flow' hf
  · rename_i flow flows hfl
    exact ⟨h.toTables, fun f hf => h.queued f (hfl ▸ mem_cons_of_mem _ hf), h.held, h.cmds,
      h.udpCmds⟩

lemma inv_dropFlows (h : Inv n) : Inv n.dropFlows := by
  refine inv_foldl (fun n flow h => ?_) _ ?_
  · exact ⟨h.toTables, h.toCallers⟩
  · exact ⟨h.toTables, fun _ hq => absurd hq not_mem_nil, h.held, h.cmds, h.udpCmds⟩

lemma Inv.queue (h : Inv n) {cmd : StackCmd} (hcm : CmdOk n.log cmd) :
    Inv { n with cmdTx := n.cmdTx ++ [cmd] } := by
  refine ⟨h.toTables, h.queued, h.held, fun c hc => ?_, h.udpCmds⟩
  rcases mem_append.1 hc with hc | hc
  · exact h.cmds c hc
  · obtain rfl := mem_singleton.1 hc
    exact hcm

lemma inv_pollWrite (h : Inv n) (hf : n.heldTcp.lookup f = some flow) (data : Bytes) :
    Inv (n.pollWrite cfg flow data) := by
  rw [pollWrite]
  split_ifs
  · exact h.queue (h.held f flow hf)
  · exact h

lemma inv_pollShutdown (h : Inv n) (hf : n.heldTcp.lookup f = some flow) :
    Inv (n.pollShutdown cfg flow) := by
  rw [pollShutdown]
  split_ifs
  · exact h.queue (h.held f flow hf)
  · exact h

lemma inv_sendDatagram (h : Inv n) (flow : UdpFlow) (data : Bytes) :
    Inv (n.sendDatagram cfg flow data) := by
  rw [sendDatagram]
  split_ifs
  · refine ⟨h.toTables, h.queued, h.held, h.cmds, fun cmd hc => ?_⟩
    rcases mem_append.1 hc with hc | hc
    · exact h.udpCmds cmd hc
    · exact ⟨_, _, _, mem_singleton.1 hc⟩
  · exact h

lemma reader_pollRead (flow : TcpFlow) (c : ReadChannel) (room : ℕ) :
    (pollRead flow c room).2.1.reader = flow.reader := by
  rw [pollRead]
  split
  · rfl
  split
  · rfl
  split
  · split <;> rfl
  · rfl
  · simp only
    split <;> rfl

lemma inv_readFlow (h : Inv n) (hf : n.heldTcp.lookup f = some flow) (room : ℕ) :
    Inv (n.readFlow flow room) := by
  have hr := reader_pollRead flow (n.readers flow.reader) room
  rw [readFlow]
  generalize pollRead flow (n.readers flow.reader) room = r at hr
  refine ⟨h.toTables, h.queued, fun g flow' hg => ?_, h.cmds, h.udpCmds⟩
  rcases lookup_of_insert hg with ⟨-, rfl⟩ | hg
  · rw [hr]
    exact h.held f flow hf
  · exact h.held g flow' hg

/-- The next command finds the slot of its flow. -/
def Orderly (n : NetStack) : Event → Prop
  | .cmd _ => ∀ cmd ∈ n.cmdTx.head?, CmdOwn n cmd
  | _ => True

instance (n : NetStack) : DecidablePred n.CmdOwn := fun _ => by
  unfold CmdOwn
  split <;> infer_instance

instance (n : NetStack) : DecidablePred n.Orderly := fun _ => by
  unfold Orderly
  split <;> infer_instance

lemma inv_step (lawful : T.Lawful) (n : NetStack) (e : Event) (h : Inv n)
    (he : Documented n e ∧ Orderly n e) : Inv (n.step T cfg e) := by
  cases e with
  | packet pkt handle now => exact inv_ingestPacket h pkt he.1 now
  | cmd now => exact inv_takeCmd h now he.2
  | udpCmd fits now => exact inv_takeUdpCmd h fits now
  | poll sockets => exact inv_poll h he.1
  | service handle => exact inv_serviceSocket lawful h
  | serviceUdp now => exact inv_serviceUdp h now
  | reapIdleUdp now => exact inv_reapIdleUdp h now
  | accept => exact inv_acceptFlow h
  | dropFlows => exact inv_dropFlows h
  | write f data =>
    simp only [step]
    cases hf : n.heldTcp.lookup f with
    | none => exact h
    | some flow => exact inv_pollWrite h hf data
  | shutdown f =>
    simp only [step]
    cases hf : n.heldTcp.lookup f with
    | none => exact h
    | some flow => exact inv_pollShutdown h hf
  | read f room =>
    simp only [step]
    cases hf : n.heldTcp.lookup f with
    | none => exact h
    | some flow => exact inv_readFlow h hf room
  | drop f =>
    simp only [step]
    split_ifs
    · exact ⟨h.toTables, h.queued, fun g flow hg => h.held g flow (lookup_of_erase hg), h.cmds,
        h.udpCmds⟩
    · exact h
  | sendDatagram f data =>
    simp only [step]
    cases n.heldUdp.lookup f with
    | none => exact h
    | some flow => exact inv_sendDatagram h flow data
  | recvDatagram f | dropUdp f =>
    simp only [step]
    split_ifs
    · exact ⟨h.toTables, h.toCallers⟩
    · exact h

/-- As long as no command finds another flow's slot, a flow reaches its own connection only. -/
theorem flows_separate (lawful : T.Lawful) {events : List Event}
    (h : Runs.Along (NetStack.step T cfg) (fun n e => Documented n e ∧ Orderly n e) new events) :
    Separate (Runs.run (NetStack.step T cfg) new events).log :=
  (Runs.inv_run (inv_step lawful) new events inv_new h).separate

def dialled (srcPort dstPort : UInt16) : Connection :=
  ⟨⟨.v4 #v[10, 0, 0, 2], srcPort⟩, ⟨.v4 #v[1, 1, 1, 1], dstPort⟩⟩

def closeState : TcpState → TcpState
  | .listen => .closed
  | .synReceived => .finWait1
  | .established => .finWait1
  | .closeWait => .lastAck
  | state => state

def maySend (s : TcpSocket) : Bool := s.state = .established || s.state = .closeWait

def mayRecv (s : TcpSocket) : Bool :=
  s.state = .established || s.state = .finWait1 || s.state = .finWait2 || s.rx ≠ []

/-- Every packet is a `SYN`, and the sockets do what the documentation of `smoltcp` says. -/
def plainTcp : Smoltcp where
  ipv4 ip := some ⟨#v[10, 0, 0, 2], #v[1, 1, 1, 1], 0, .tcp, ip.tail⟩
  ipv6 _ := none
  tcp l4 := some ⟨(l4.getD 0 0).toUInt16, (l4.getD 1 0).toUInt16, true, false, false, false⟩
  udp _ := none
  maySend := maySend
  mayRecv := mayRecv
  canSend s := maySend s && s.tx.length < s.txCapacity
  canRecv s := mayRecv s && s.rx ≠ []
  sendSlice s data :=
    let n := min data.length (s.txCapacity - s.tx.length)
    (n, { s with tx := s.tx ++ data.take n })
  recvSlice s room := (s.rx.take room, { s with rx := s.rx.drop room })
  close s := { s with state := closeState s.state }
  abort s := { s with state := .closed }

lemma plainTcp_lawful : plainTcp.Lawful where
  maySend s h := by
    simp only [plainTcp, maySend, Bool.or_eq_true, decide_eq_true_eq] at h
    rcases h with h | h <;> simp [Synchronized, h]
  mayRecv s h := by
    simp only [plainTcp, mayRecv, Bool.or_eq_true, decide_eq_true_eq] at h
    rcases h with ((h | h) | h) | h
    · exact .inl (by simp [Synchronized, h])
    · exact .inl (by simp [Synchronized, h])
    · exact .inl (by simp [Synchronized, h])
    · exact .inr h
  canSend s h := (Bool.and_eq_true_iff.1 h).1
  sendSlice _ _ := ⟨rfl, rfl, rfl⟩
  recvSlice s room := ⟨rfl, rfl, fun hr hn => hr (by simp [plainTcp, hn])⟩
  close s := by
    refine ⟨rfl, rfl, fun h => by simp [plainTcp, closeState, h], fun ⟨h1, h2, h3⟩ => ?_⟩
    simp only [Synchronized, plainTcp]
    generalize s.state = st at h1 h2 h3
    cases st <;> simp_all [closeState]
  abort _ := rfl

def only (state : TcpState) (conn : Connection) : SocketSet :=
  AList.singleton 0 (.tcp ⟨state, conn.dst, some conn, [], [], 65536⟩)

def opens (srcPort dstPort : UInt8) : List Event :=
  [.packet [0x45, srcPort, dstPort] 0 0,
    .poll (only .established (dialled srcPort.toUInt16 dstPort.toUInt16)), .service 0, .accept]

def resets (srcPort dstPort : UInt8) : List Event :=
  [.poll (only .closed (dialled srcPort.toUInt16 dstPort.toUInt16)), .service 0]

/-- The second connection gets the handle of the first one, whose flow is written to only before. -/
theorem flows_separate_reuse : Separate (Runs.run (step plainTcp .default) new
      (opens 7 80 ++ [.write 0 [9], .cmd 0, .service 0] ++ resets 7 80 ++ opens 8 81 ++
        [.write 1 [5], .cmd 0, .service 0])).log ∧ (Runs.run (step plainTcp .default) new
      (opens 7 80 ++ [.write 0 [9], .cmd 0, .service 0] ++ resets 7 80 ++ opens 8 81 ++
        [.write 1 [5], .cmd 0, .service 0])).log =
      [.emitted 0 (dialled 7 80), .sent 0 (dialled 7 80) [9], .emitted 1 (dialled 8 81),
        .sent 1 (dialled 8 81) [5]] :=
  ⟨flows_separate plainTcp_lawful (by decide +kernel), by decide +kernel⟩

def reused : List Event :=
  opens 7 80 ++ resets 7 80 ++ opens 8 81 ++ [.write 0 [9], .shutdown 0, .cmd 0, .cmd 0, .service 0]

/-- The app resets a connection; a write and a shutdown of its flow go to the next one. -/
theorem flows_mixed : Runs.Along (step plainTcp .default) Documented new reused ∧
    ¬ Separate (Runs.run (step plainTcp .default) new reused).log := by
  refine ⟨by decide +kernel, fun h => ?_⟩
  exact absurd (h.sent 0 (dialled 8 81) [9] (by decide +kernel)) (by decide +kernel)

end NetStack

end Mirage.Tun
