import Mirage.Proofs.MuxStreams

/-!
# Delivery on a stream

One direction of a stream is a `Flow`, until the receiver is dead to it. The two directions start
with a `Handshake`.
-/

namespace Mirage.Mux

open Words Runs View StreamRole List

def Has (c : MuxCmd) (F : List MuxFrame) : Prop := ∃ f ∈ F, f.command = c

section Has

variable {c : MuxCmd} {f : MuxFrame} {F G : List MuxFrame}

@[simp] lemma has_nil : ¬Has c [] := nofun

@[simp] lemma has_cons : Has c (f :: F) ↔ f.command = c ∨ Has c F := by
  simp [Has]

@[simp] lemma has_append : Has c (F ++ G) ↔ Has c F ∨ Has c G := by
  simp [Has, or_and_right, exists_or]

lemma not_has_append (hF : ¬Has c F) (hG : ¬Has c G) : ¬Has c (F ++ G) :=
  fun h => (has_append.1 h).elim hF hG

lemma Has.of_tail_append (h : Has c (F ++ G).tail) : Has c F.tail ∨ Has c G := by
  rcases F with _ | ⟨f, F⟩
  · obtain ⟨g, hg, hgc⟩ := h
    exact .inr ⟨g, mem_of_mem_tail hg, hgc⟩
  · exact has_append.1 h

lemma mem_takeWhile_append (h : f ∈ (F ++ G).takeWhile (·.command ≠ c)) :
    f ∈ F.takeWhile (·.command ≠ c) ∨ f ∈ G ∧ ¬Has c F := by
  induction F with
  | nil => exact .inr ⟨(takeWhile_sublist _).subset h, has_nil⟩
  | cons g F ih =>
    rw [cons_append, takeWhile_cons] at h
    rw [takeWhile_cons]
    by_cases hg : g.command = c
    · simp [hg] at h
    simp only [ne_eq, hg, not_false_eq_true, decide_true, if_true, mem_cons] at h ⊢
    rcases h with rfl | h
    · exact .inl (.inl rfl)
    · refine (ih h).imp .inr fun ⟨h1, h2⟩ => ⟨h1, ?_⟩
      rw [has_cons]
      exact not_or.2 ⟨hg, h2⟩

end Has

def dataOf (F : List MuxFrame) : Bytes :=
  F.flatMap fun f => if f.command = .data then f.body else []

@[simp] lemma dataOf_nil : dataOf [] = [] := rfl

@[simp] lemma dataOf_cons (f : MuxFrame) (F : List MuxFrame) :
    dataOf (f :: F) = (if f.command = .data then f.body else []) ++ dataOf F := rfl

@[simp] lemma dataOf_append (F G : List MuxFrame) : dataOf (F ++ G) = dataOf F ++ dataOf G :=
  flatMap_append

lemma dataOf_eq_nil {F : List MuxFrame} (h : ¬Has .data F) : dataOf F = [] := by
  refine flatMap_eq_nil_iff.2 fun f hf => if_neg fun hd => h ⟨f, hf, hd⟩

def stateOf (a : Option Stream) : Option StreamState := a.map (·.state)

@[simp] lemma stateOf_none : stateOf none = none := rfl

@[simp] lemma stateOf_some (s : Stream) : stateOf (some s) = some s.state := rfl

def Done (a : Option Stream) : Prop := stateOf a = none ∨ stateOf a = some .halfClosedLocal

section Tables

variable {w id : UInt32} {a b : Option Stream} {out : List MuxFrame} {e : Effect}
  {ev : Option MuxEvent} {l : Log}
  {owned : Prop} {f : MuxFrame}

section

variable (h : CallStep w id a b out e)

include h

lemma CallStep.state_cases (he : e ≠ .opened) : stateOf b = none ∨ stateOf b = stateOf a ∨
    stateOf a = some .open ∧ stateOf b = some .halfClosedLocal ∨
    stateOf a = some .synReceived ∧ stateOf b = some .open := by
  cases h <;> simp_all

lemma CallStep.state_ne_none (he : e ≠ .opened) : stateOf a ≠ none := by
  cases h <;> simp_all

lemma CallStep.no_begin (he : e ≠ .opened) : ¬Has .begin out := by
  cases h <;> simp_all

lemma CallStep.of_beginOk (ho : Has .beginOk out) : stateOf a = some .synReceived := by
  cases h <;> simp_all

lemma CallStep.of_data (ho : Has .data out ∨ Has .endLocal out) :
    stateOf a = some .open ∨ stateOf a = some .halfClosedRemote := by
  cases h <;> simp_all

lemma CallStep.done_of_end (ho : Has .endLocal out) : Done b := by
  cases h <;> simp_all [Done]

lemma CallStep.consumed_eq (he : e ≠ .opened) :
    (l.after e).consumed = l.consumed ++ dataOf out := by
  cases h <;> simp_all [Log.after]

lemma CallStep.read_eq (he : e ≠ .opened) :
    (l.after e).surfaced = l.surfaced ∧ (l.after e).ended = l.ended := by
  cases h <;> simp_all [Log.after]

lemma CallStep.pairwise (R : MuxFrame → MuxFrame → Prop) : out.Pairwise R := by
  cases h <;> simp

end

variable (h : RecvStep w owned False f a b out e ev)

include h

lemma RecvStep.state_cases : stateOf b = none ∨ stateOf b = stateOf a ∨
    stateOf a = none ∧ stateOf b = some .synReceived ∧ f.command = .begin ∧ owned ∨
    stateOf a = some .synSent ∧ stateOf b = some .open ∧ f.command = .beginOk ∨
    stateOf a = some .open ∧ stateOf b = some .halfClosedRemote ∧ e = .ended := by
  cases h <;> simp_all

lemma RecvStep.of_beginOk (hf : f.command = .beginOk)
    (ha : stateOf a = some .synSent) : stateOf b = some .open := by
  cases h with
  | ignored _ hi =>
    rcases a with _ | s
    · cases ha
    · simp only [Ignored, hf] at hi
      exact absurd (Option.some.inj ha) hi
  | _ => simp_all

lemma RecvStep.out_reset : ∀ g ∈ out, g.command = .reset := by
  cases h <;> simp

lemma RecvStep.pairwise (R : MuxFrame → MuxFrame → Prop) : out.Pairwise R:= by
  cases h <;> simp

lemma RecvStep.no_out {c : MuxCmd} (hc : c ≠ .reset) :
    ¬Has c out := fun ⟨g, hg, hgc⟩ => hc (hgc.symm.trans (h.out_reset g hg))

lemma RecvStep.consumed_eq : (l.after e).consumed = l.consumed := by
  cases h <;> rfl

lemma RecvStep.surfaced_eq (hf : f.command ≠ .data) : (l.after e).surfaced = l.surfaced := by
  cases h <;> first | rfl | exact absurd ‹f.command = .data› hf

lemma RecvStep.ended_cases : (l.after e).ended = l.ended ∨ e = .ended ∧ f.command = .endLocal ∧
      (stateOf a = some .open ∨ stateOf a = some .halfClosedLocal) := by
  cases h <;> simp_all [Log.after]

theorem RecvStep.data_cases (hf : f.command = .data) :
    (e = .surfaced f.body ∧ (stateOf a = some .open ∨ stateOf a = some .halfClosedLocal)) ∨
    (e = .quiet ∧ (stateOf b = none ∨ stateOf b = stateOf a ∧ stateOf a ≠ some .open ∧
      stateOf a ≠ some .halfClosedLocal)) := by
  cases h with
  | ignored _ hi =>
    rcases a with _ | s
    · simp
    · simp only [Ignored, hf, and_false, or_false, not_or] at hi
      simp [hi]
  | _ => simp_all

end Tables

/-- What was surfaced and the data in flight make up what was consumed. -/
structure Flow (a b : Option Stream) (F : List MuxFrame) (l l' : Log) (dead : Prop) : Prop where
  ends : F.Pairwise fun f g =>
    f.command = .endLocal → g.command ≠ .data ∧ g.command ≠ .endLocal
  done : Has .endLocal F ∨ l'.ended = true → Done a
  ended : l'.ended = true → ¬Has .data F ∧ ¬Has .endLocal F ∧ l'.surfaced = l.consumed
  remote : stateOf b = some .halfClosedRemote → l'.ended = true
  deliver : l'.surfaced ++ dataOf F = l.consumed ∨ l'.surfaced <+: l.consumed ∧ dead

namespace Flow

variable {w id : UInt32} {a a' b b' : Option Stream} {F out rest : List MuxFrame} {e : Effect}
  {ev : Option MuxEvent}
  {l l' : Log} {dead dead' owned : Prop} {f : MuxFrame}

lemma surfaced_prefix (h : Flow a b F l l' dead) : l'.surfaced <+: l.consumed :=
  h.deliver.elim (fun hd => ⟨_, hd⟩) fun hd => hd.1

lemma call_send (h : Flow a b F l l' dead) (hc : CallStep w id a a' out e) (he : e ≠ .opened)
    (hd : dead → dead') : Flow a' b (F ++ out) (l.after e) l' dead' := by
  -- an end that is done sends neither data nor an end again
  have hq : Done a → ¬Has .data out ∧ ¬Has .endLocal out := by
    intro hdn
    refine not_or.1 fun ho => ?_
    have hon := hc.of_data ho
    rcases hdn with hn | hn <;> simp [hn] at hon
  have hdn : Done a → Done a' := by
    intro hdn
    rcases hc.state_cases he with h | h | ⟨h, -⟩ | ⟨h, -⟩ <;> simp_all [Done]
  refine ⟨?_, ?_, ?_, h.remote, ?_⟩
  · refine pairwise_append.2 ⟨h.ends, hc.pairwise _, fun f hf g hg hed => ?_⟩
    obtain ⟨h1, h2⟩ := hq (h.done (.inl ⟨f, hf, hed⟩))
    exact ⟨fun hgc => h1 ⟨g, hg, hgc⟩, fun hgc => h2 ⟨g, hg, hgc⟩⟩
  · rw [has_append]
    rintro ((hF | hot) | hen)
    · exact hdn (h.done (.inl hF))
    · exact hc.done_of_end hot
    · exact hdn (h.done (.inr hen))
  · intro hen
    obtain ⟨h1, h2, h3⟩ := h.ended hen
    obtain ⟨h4, h5⟩ := hq (h.done (.inr hen))
    rw [hc.consumed_eq he, dataOf_eq_nil h4, append_nil]
    exact ⟨not_has_append h1 h4, not_has_append h2 h5, h3⟩
  · rw [hc.consumed_eq he, dataOf_append, ← append_assoc]
    refine h.deliver.imp (fun hdl => by rw [hdl]) fun ⟨hp, hdd⟩ => ⟨?_, hd hdd⟩
    exact hp.trans (prefix_append _ _)

lemma call_read (h : Flow a b F l l' dead) (hc : CallStep w id b b' out e) (he : e ≠ .opened)
    (hd : dead → dead') : Flow a b' F l (l'.after e) dead' := by
  obtain ⟨hs, hen⟩ := hc.read_eq he
  refine ⟨h.ends, ?_, ?_, fun hb => ?_, ?_⟩
  · rw [hen]
    exact h.done
  · rw [hen, hs]
    exact h.ended
  · rw [hen]
    refine h.remote ?_
    rcases hc.state_cases he with h | h | ⟨-, h⟩ | ⟨-, h⟩ <;> simp_all
  · rw [hs]
    exact h.deliver.imp_right fun hdl => ⟨hdl.1, hd hdl.2⟩

lemma recv_send (h : Flow a b F l l' dead) (hr : RecvStep w owned False f a a' out e ev)
    (hdn : Done a → (Has .endLocal F ∨ l'.ended = true) → Done a') (hd : dead → dead') :
    Flow a' b (F ++ out) (l.after e) l' dead' := by
  have hdt := hr.no_out (c := .data) nofun
  have he := hr.no_out (c := .endLocal) nofun
  refine ⟨?_, ?_, ?_, h.remote, ?_⟩
  · refine pairwise_append.2 ⟨h.ends, hr.pairwise _, fun f _ g hg _ => ?_⟩
    exact ⟨fun hgc => hdt ⟨g, hg, hgc⟩, fun hgc => he ⟨g, hg, hgc⟩⟩
  · rw [has_append, or_iff_left he]
    exact fun hF => hdn (h.done hF) hF
  · rw [has_append, has_append, or_iff_left hdt, or_iff_left he, hr.consumed_eq]
    exact h.ended
  · rw [hr.consumed_eq, dataOf_append, dataOf_eq_nil hdt, append_nil]
    exact h.deliver.imp_right fun hdl => ⟨hdl.1, hd hdl.2⟩

lemma recv_read (h : Flow a b (f :: rest) l l' dead) (hr : RecvStep w owned False f b b' out e ev)
    (hl : stateOf b = some .open ∨ stateOf b = some .halfClosedLocal → ¬dead)
    (hdp : f.command = .data → e = .quiet → dead') (hd : dead → dead') :
    Flow a b' rest l (l'.after e) dead' := by
  obtain ⟨hfr, hen⟩ := pairwise_cons.1 h.ends
  have hdv : (l'.after e).surfaced ++ dataOf rest = l.consumed ∨
      (l'.after e).surfaced <+: l.consumed ∧ dead' := by
    by_cases hf : f.command = .data
    · have hdl := h.deliver
      rw [dataOf_cons, if_pos hf, ← append_assoc] at hdl
      rcases hr.data_cases hf with ⟨rfl, ho⟩ | ⟨rfl, -⟩
      · exact .inl (hdl.resolve_right fun hdd => hl ho hdd.2)
      · exact .inr ⟨h.surfaced_prefix, hdp hf rfl⟩
    · rw [hr.surfaced_eq hf]
      have hdl := h.deliver
      rw [dataOf_cons, if_neg hf, nil_append] at hdl
      exact hdl.imp_right fun hdd => ⟨hdd.1, hd hdd.2⟩
  -- an end that was surfaced leaves no data behind, and the one surfaced now is the last frame
  have he : (l'.after e).ended = true →
      (Has .endLocal (f :: rest) ∨ l'.ended = true) ∧ ¬Has .data rest ∧ ¬Has .endLocal rest ∧
        (l'.after e).surfaced = l.consumed := by
    intro ha
    rcases hr.ended_cases with hs | ⟨rfl, hf, ho⟩
    · rw [hs] at ha
      obtain ⟨h1, h2, h3⟩ := h.ended ha
      rw [has_cons, not_or] at h1 h2
      rw [hr.surfaced_eq h1.1]
      exact ⟨.inr ha, h1.2, h2.2, h3⟩
    · have hdt : ¬Has .data rest := fun ⟨g, hg, hgc⟩ => (hfr g hg hf).1 hgc
      refine ⟨.inl (has_cons.2 (.inl hf)), hdt, fun ⟨g, hg, hgc⟩ => (hfr g hg hf).2 hgc, ?_⟩
      have hnd : f.command ≠ .data := by
        rw [hf]
        nofun
      have hdl := h.deliver.resolve_right fun hdd => hl ho hdd.2
      rwa [dataOf_cons, if_neg hnd, dataOf_eq_nil hdt, append_nil, append_nil] at hdl
  refine ⟨hen, ?_, fun ha => (he ha).2, fun hb => ?_, hdv⟩
  · rintro (hrs | ha)
    · exact h.done (.inl (has_cons.2 (.inr hrs)))
    · exact h.done (he ha).1
  rcases hr.state_cases with h1 | h1 | ⟨-, h1, -⟩ | ⟨-, h1, -⟩ | ⟨-, -, rfl⟩
  · simp [h1] at hb
  · have hol := h.remote (h1 ▸ hb)
    rcases hr.ended_cases with hs | ⟨rfl, -⟩
    · rw [hs, hol]
    · rfl
  · simp [h1] at hb
  · simp [h1] at hb
  · rfl

end Flow

/-- The opener waits for a `BeginOk` that will not come, or its stream is gone. -/
def DeadOpener (x y : Option Stream) (A B : List MuxFrame) : Prop :=
  stateOf x = none ∨ stateOf x = some .synSent ∧ ¬Has .beginOk B ∧
    stateOf y ≠ some .synReceived ∧ ¬Has .begin A

section DeadOpener

variable {w id : UInt32} {x x' y y' : Option Stream} {A B out rest : List MuxFrame} {e : Effect}
  {ev : Option MuxEvent}
  {owned : Prop} {f : MuxFrame}

lemma DeadOpener.call_opener (h : DeadOpener x y A B) (hc : CallStep w id x x' out e)
    (he : e ≠ .opened) : DeadOpener x' y (A ++ out) B := by
  obtain ⟨hx, hB, hy, hA⟩ := h.resolve_left (hc.state_ne_none he)
  rcases hc.state_cases he with h1 | h1 | ⟨h1, -⟩ | ⟨h1, -⟩
  · exact .inl h1
  · exact .inr ⟨h1.trans hx, hB, hy, not_has_append hA (hc.no_begin he)⟩
  · simp [hx] at h1
  · simp [hx] at h1

lemma CallStep.synReceived (hc : CallStep w id y y' out e) (he : e ≠ .opened)
    (hy' : stateOf y' = some .synReceived) : stateOf y = some .synReceived := by
  rcases hc.state_cases he with h1 | h1 | ⟨-, h1⟩ | ⟨-, h1⟩ <;> simp_all

lemma DeadOpener.call_acceptor (h : DeadOpener x y A B) (hc : CallStep w id y y' out e)
    (he : e ≠ .opened) : DeadOpener x y' A (B ++ out) := by
  refine h.imp_right fun ⟨hx, hB, hy, hA⟩ => ⟨hx, ?_, fun hy' => hy (hc.synReceived he hy'), hA⟩
  exact not_has_append hB fun ho => hy (hc.of_beginOk ho)

lemma DeadOpener.recv_opener (h : DeadOpener x y A (f :: rest))
    (hr : RecvStep w owned False f x x' out e ev) (hf : f.command ≠ .begin) :
    DeadOpener x' y (A ++ out) rest := by
  rcases h with hx | ⟨hx, hB, hy, hA⟩
  · rcases hr.state_cases with h1 | h1 | ⟨-, -, h1, -⟩ | ⟨h1, -⟩ | ⟨h1, -⟩
    · exact .inl h1
    · exact .inl (h1.trans hx)
    · exact absurd h1 hf
    · simp [hx] at h1
    · simp [hx] at h1
  · rw [has_cons, not_or] at hB
    rcases hr.state_cases with h1 | h1 | ⟨h1, -⟩ | ⟨-, -, h1⟩ | ⟨h1, -⟩
    · exact .inl h1
    · exact .inr ⟨h1.trans hx, hB.2, hy, not_has_append hA (hr.no_out nofun)⟩
    · simp [hx] at h1
    · exact absurd h1 hB.1
    · simp [hx] at h1

lemma RecvStep.synReceived (hr : RecvStep w owned False f y y' out e ev)
    (hy' : stateOf y' = some .synReceived) :
    f.command = .begin ∨ stateOf y = some .synReceived := by
  rcases hr.state_cases with h1 | h1 | ⟨-, -, h1, -⟩ | ⟨-, h1, -⟩ | ⟨-, h1, -⟩
  · simp [h1] at hy'
  · exact .inr (h1 ▸ hy')
  · exact .inl h1
  · simp [h1] at hy'
  · simp [h1] at hy'

lemma DeadOpener.recv_acceptor (h : DeadOpener x y (f :: rest) B)
    (hr : RecvStep w owned False f y y' out e ev) : DeadOpener x y' rest (B ++ out) := by
  refine h.imp_right fun ⟨hx, hB, hy, hA⟩ => ?_
  rw [has_cons, not_or] at hA
  exact ⟨hx, not_has_append hB (hr.no_out nofun), fun hy' => (hr.synReceived hy').elim hA.1 hy,
    hA.2⟩

end DeadOpener

/-- The acceptor no longer has the stream. -/
def DeadAcceptor (y : Option Stream) (A : List MuxFrame) : Prop := stateOf y = none ∧ ¬Has .begin A

/-- Before the stream is open nothing is sent on it. -/
structure Early (x : Option Stream) (A B : List MuxFrame) (lx ly : Log) : Prop where
  opener : stateOf x = none ∨ stateOf x = some .synSent
  forward : ¬(Has .data A ∨ Has .endLocal A)
  back : ¬(Has .data B ∨ Has .endLocal B) ∧ ¬Has .beginOk B
  consumed : lx.consumed = [] ∧ ly.consumed = []
  ended : lx.ended = false ∧ ly.ended = false

/-- How far the opening of a stream has come. -/
structure Handshake (x y : Option Stream) (A B : List MuxFrame) (lx ly : Log) : Prop where
  x_state : stateOf x ≠ some .synReceived ∧ stateOf x ≠ some .closed
  y_state : stateOf y ≠ some .synSent ∧ stateOf y ≠ some .closed
  forward : ¬Has .beginOk A
  back : ¬Has .begin B
  first : ¬Has .begin A.tail
  before : Has .begin A → stateOf y = none ∧ B = []
  early : Has .begin A ∨ stateOf y = some .synReceived → Early x A B lx ly
  waiting : stateOf x = some .synSent → DeadOpener x y A B ∨
    ∀ f ∈ B.takeWhile (·.command ≠ .beginOk), f.command ≠ .data ∧ f.command ≠ .endLocal

namespace Handshake

variable {w id : UInt32} {x x' y y' : Option Stream} {A B out rest : List MuxFrame} {e : Effect}
  {ev : Option MuxEvent}
  {lx ly : Log} {owned : Prop} {f : MuxFrame}

lemma call_opener (h : Handshake x y A B lx ly) (hc : CallStep w id x x' out e)
    (he : e ≠ .opened) : Handshake x' y (A ++ out) B (lx.after e) ly := by
  have hb := hc.no_begin he
  have hsm := hc.state_ne_none he
  have hs : stateOf x' = none ∨ stateOf x' = stateOf x ∨
      stateOf x = some .open ∧ stateOf x' = some .halfClosedLocal := by
    rcases hc.state_cases he with h1 | h1 | h1 | h1
    · exact .inl h1
    · exact .inr (.inl h1)
    · exact .inr (.inr h1)
    · exact absurd h1.1 h.x_state.1
  refine ⟨?_, h.y_state, ?_, h.back, ?_, ?_, ?_, ?_⟩
  · rcases hs with h1 | h1 | ⟨-, h1⟩ <;> rw [h1]
    · simp
    · exact h.x_state
    · simp
  · exact not_has_append h.forward fun ho => h.x_state.1 (hc.of_beginOk ho)
  · exact fun hh => hh.of_tail_append.elim h.first hb
  · rw [has_append, or_iff_left hb]
    exact h.before
  · rw [has_append, or_iff_left hb]
    intro hel
    have hol := h.early hel
    have hsy := hol.opener.resolve_left hsm
    have hd : ¬(Has .data out ∨ Has .endLocal out) := fun ho => by
      rcases hc.of_data ho with h1 | h1 <;> simp [hsy] at h1
    obtain ⟨-, hen⟩ := hc.read_eq (l := lx) he
    refine ⟨?_, ?_, hol.back, ?_, ?_⟩
    · rcases hs with h1 | h1 | ⟨h1, -⟩ <;> simp_all
    · rw [has_append, has_append]
      have := hol.forward
      tauto
    · rw [hc.consumed_eq he, dataOf_eq_nil (not_or.1 hd).1, append_nil]
      exact hol.consumed
    · rw [hen]
      exact hol.ended
  · intro hx'
    have hx : stateOf x = some .synSent := by
      rcases hs with h1 | h1 | ⟨-, h1⟩ <;> simp_all
    exact (h.waiting hx).imp_left fun hdd => hdd.call_opener hc he

lemma call_acceptor (h : Handshake x y A B lx ly) (hc : CallStep w id y y' out e)
    (he : e ≠ .opened) : Handshake x y' A (B ++ out) lx (ly.after e) := by
  have hb := hc.no_begin he
  have hs := hc.state_ne_none he
  have hA : ¬Has .begin A := fun hA => hs (h.before hA).1
  have hsy := hc.synReceived he
  refine ⟨h.x_state, ?_, h.forward, ?_, h.first, fun hA' => absurd hA' hA, ?_, ?_⟩
  · rcases hc.state_cases he with h1 | h1 | ⟨-, h1⟩ | ⟨-, h1⟩ <;> rw [h1]
    · simp
    · exact h.y_state
    · simp
    · simp
  · exact not_has_append h.back hb
  · intro hel
    have hy' := hel.resolve_left hA
    have hy := hsy hy'
    have hol := h.early (.inr hy)
    have hd : ¬(Has .data out ∨ Has .endLocal out) := fun ho => by
      rcases hc.of_data ho with h1 | h1 <;> simp [hy] at h1
    have hok : ¬Has .beginOk out := by
      rintro ⟨g, hg, hgc⟩
      cases hc <;> simp_all
    obtain ⟨-, hen⟩ := hc.read_eq (l := ly) he
    refine ⟨hol.opener, hol.forward, ?_, ?_, ?_⟩
    · rw [has_append, has_append, has_append]
      have := hol.back
      tauto
    · rw [hc.consumed_eq he, dataOf_eq_nil (not_or.1 hd).1, append_nil]
      exact hol.consumed
    · rw [hen]
      exact hol.ended
  · intro hx
    by_cases hdd : DeadOpener x y A B
    · exact .inl (hdd.call_acceptor hc he)
    have hw := (h.waiting hx).resolve_left hdd
    by_cases hd : Has .data out ∨ Has .endLocal out
    · by_cases hB : Has .beginOk B
      · refine .inr fun f hf => hw f ?_
        exact (mem_takeWhile_append hf).resolve_right fun h1 => h1.2 hB
      · -- data sent with no `BeginOk` on its way: it was never queued
        have hy := hc.of_data hd
        have hne : stateOf y ≠ some .synReceived := by
          rcases hy with hy | hy <;> simp [hy]
        exact absurd (.inr ⟨hx, hB, hne, hA⟩) hdd
    · refine .inr fun f hf => (mem_takeWhile_append hf).elim (hw f) fun h1 => ?_
      rw [not_or] at hd
      exact ⟨fun hfc => hd.1 ⟨f, h1.1, hfc⟩, fun hfc => hd.2 ⟨f, h1.1, hfc⟩⟩

lemma recv_opener (h : Handshake x y A (f :: rest) lx ly)
    (hr : RecvStep w owned False f x x' out e ev) :
    Handshake x' y (A ++ out) rest (lx.after e) ly := by
  have hA : ¬Has .begin A := fun hA => cons_ne_nil _ _ (h.before hA).2
  obtain ⟨hf, hbc⟩ := not_or.1 (has_cons.not.1 h.back)
  have hb := hr.no_out (c := .begin) nofun
  have hA' := not_has_append hA hb
  have hs := hr.state_cases
  refine ⟨?_, h.y_state, ?_, hbc, ?_, fun hh => absurd hh hA', ?_, ?_⟩
  · have hx := h.x_state
    rcases hs with h1 | h1 | ⟨-, -, h1, -⟩ | ⟨-, h1, -⟩ | ⟨-, h1, -⟩
    · simp [h1]
    · rwa [h1]
    · exact absurd h1 hf
    · simp [h1]
    · simp [h1]
  · exact not_has_append h.forward (hr.no_out nofun)
  · exact fun hh => hh.of_tail_append.elim h.first hb
  · intro he
    have ho := h.early (.inr (he.resolve_left hA'))
    obtain ⟨hd, hok⟩ := ho.back
    rw [has_cons, has_cons] at hd
    rw [has_cons, not_or] at hok
    have hen : f.command ≠ .endLocal := fun hfc => hd (.inr (.inl hfc))
    refine ⟨?_, ?_, ⟨by tauto, hok.2⟩, ?_, ?_⟩
    · have hx := ho.opener
      rcases hs with h1 | h1 | ⟨-, -, h1, -⟩ | ⟨-, -, h1⟩ | ⟨h1, -⟩
      · exact .inl h1
      · rwa [h1]
      · exact absurd h1 hf
      · exact absurd h1 hok.1
      · simp [h1] at hx
    · rw [has_append, has_append, or_iff_left (hr.no_out (c := .data) nofun),
        or_iff_left (hr.no_out (c := .endLocal) nofun)]
      exact ho.forward
    · rw [hr.consumed_eq]
      exact ho.consumed
    · rcases hr.ended_cases with h1 | ⟨-, h1, -⟩
      · rw [h1]
        exact ho.ended
      · exact absurd h1 hen
  · intro hx'
    have hx : stateOf x = some .synSent := by
      rcases hs with h1 | h1 | ⟨-, h1, -⟩ | ⟨-, h1, -⟩ | ⟨-, h1, -⟩
      · simp [h1] at hx'
      · exact h1 ▸ hx'
      all_goals simp [h1] at hx'
    have hok : f.command ≠ .beginOk := fun hok => by
      simp [hr.of_beginOk hok hx] at hx'
    rcases h.waiting hx with hdd | hw
    · exact .inl (hdd.recv_opener hr hf)
    · refine .inr fun g hg => hw g ?_
      rw [takeWhile_cons, if_pos (by simp [hok])]
      exact mem_cons_of_mem _ hg

lemma recv_acceptor (h : Handshake x y (f :: rest) B lx ly)
    (hr : RecvStep w owned False f y y' out e ev) :
    Handshake x y' rest (B ++ out) lx (ly.after e) := by
  have hrs : ¬Has .begin rest := h.first
  obtain ⟨hf, hfr⟩ := not_or.1 (has_cons.not.1 h.forward)
  have hs := hr.state_cases
  have hsy : stateOf y' = some .synReceived →
      Has .begin (f :: rest) ∨ stateOf y = some .synReceived := fun hy' =>
    (hr.synReceived hy').imp_left fun hfb => has_cons.2 (.inl hfb)
  refine ⟨h.x_state, ?_, hfr, ?_, ?_, fun hh => absurd hh hrs, ?_, ?_⟩
  · have hy := h.y_state
    rcases hs with h1 | h1 | ⟨-, h1, -⟩ | ⟨h1, -⟩ | ⟨-, h1, -⟩
    · simp [h1]
    · rwa [h1]
    · simp [h1]
    · exact absurd h1 hy.1
    · simp [h1]
  · exact not_has_append h.back (hr.no_out nofun)
  · exact fun ⟨g, hg, hgc⟩ => hrs ⟨g, mem_of_mem_tail hg, hgc⟩
  · intro he
    have ho := h.early (hsy (he.resolve_left hrs))
    have hfw := ho.forward
    rw [has_cons, has_cons] at hfw
    have hen : f.command ≠ .endLocal := fun hfc => hfw (.inr (.inl hfc))
    refine ⟨ho.opener, by tauto, ?_, ?_, ?_⟩
    · rw [has_append, has_append, has_append, or_iff_left (hr.no_out (c := .data) nofun),
        or_iff_left (hr.no_out (c := .endLocal) nofun),
        or_iff_left (hr.no_out (c := .beginOk) nofun)]
      exact ho.back
    · rw [hr.consumed_eq]
      exact ho.consumed
    · rcases hr.ended_cases with h1 | ⟨-, h1, -⟩
      · rw [h1]
        exact ho.ended
      · exact absurd h1 hen
  · intro hx
    rcases h.waiting hx with hd | hw
    · exact .inl (hd.recv_acceptor hr)
    · refine .inr fun g hg => (mem_takeWhile_append hg).elim (hw g) fun h1 => ?_
      rw [hr.out_reset g h1.1]
      simp

end Handshake

/-- A view that a run can have. -/
structure Wf (X : StreamRole) (v : View) : Prop where
  handshake : Handshake (v.ent X) (v.ent X.peer) (v.fly X.peer) (v.fly X) (v.log X) (v.log X.peer)
  forward : Flow (v.ent X) (v.ent X.peer) (v.fly X.peer) (v.log X) (v.log X.peer)
    (DeadAcceptor (v.ent X.peer) (v.fly X.peer))
  back : Flow (v.ent X.peer) (v.ent X) (v.fly X) (v.log X.peer) (v.log X)
    (DeadOpener (v.ent X) (v.ent X.peer) (v.fly X.peer) (v.fly X))

namespace Wf

variable {X : StreamRole} {v : View} {w id : UInt32} {b : Option Stream}
  {out rest : List MuxFrame} {e : Effect} {ev : Option MuxEvent} {owned : Prop} {f : MuxFrame}

lemma opened (hf : f.command = .begin) : Wf X (.opened X w f) := by
  refine ⟨?_, ?_, ?_⟩ <;> simp only [opened_ent, opened_ent_peer, opened_fly,
    opened_fly_peer, opened_log]
  · exact
      { x_state := by simp
        y_state := by simp
        forward := by simp [hf]
        back := by simp
        first := by simp
        before := by simp
        early := fun _ => ⟨by simp, by simp [hf], by simp, ⟨rfl, rfl⟩, rfl, rfl⟩
        waiting := by simp }
  · exact ⟨by simp, by simp [hf], by simp, by simp, .inl (by simp [hf])⟩
  · exact ⟨by simp, by simp, by simp, by simp, .inl (by simp)⟩

lemma call_opener (h : Wf X v) (hc : CallStep w id (v.ent X) b out e) (he : e ≠ .opened) :
    Wf X (v.move X b out e) := by
  refine ⟨?_, ?_, ?_⟩ <;> simp only [move_ent, move_ent_peer, move_fly,
    move_fly_peer, move_log, move_log_peer]
  · exact h.handshake.call_opener hc he
  · exact h.forward.call_send hc he fun hd => ⟨hd.1, not_has_append hd.2 (hc.no_begin he)⟩
  · exact h.back.call_read hc he fun hd => hd.call_opener hc he

lemma call_acceptor (h : Wf X v) (hc : CallStep w id (v.ent X.peer) b out e) (he : e ≠ .opened) :
    Wf X (v.move X.peer b out e) := by
  have hf := move_fly_peer (v := v) (r := X.peer) b out e
  have hen := move_ent_peer (v := v) (r := X.peer) b out e
  have hl := move_log_peer (v := v) (r := X.peer) b out e
  rw [peer_peer] at hf hen hl
  refine ⟨?_, ?_, ?_⟩ <;> simp only [move_ent, move_fly, move_log, hf, hen, hl]
  · exact h.handshake.call_acceptor hc he
  · exact h.forward.call_read hc he fun hd => absurd hd.1 (hc.state_ne_none he)
  · exact h.back.call_send hc he fun hd => hd.call_acceptor hc he

lemma recv_opener (h : Wf X v) (hf : v.fly X = f :: rest)
    (hr : RecvStep w owned False f (v.ent X) b out e ev) :
    Wf X ((v.pop X rest).move X b out e) := by
  have hh := h.handshake
  have hbc := h.back
  rw [hf] at hh hbc
  have hb : f.command ≠ .begin := (not_or.1 (has_cons.not.1 hh.back)).1
  refine ⟨?_, ?_, ?_⟩ <;> simp only [move_ent, move_ent_peer, move_fly, move_fly_peer, move_log,
    move_log_peer, pop_ent, pop_fly, pop_fly_peer, pop_log]
  · exact hh.recv_opener hr
  · refine h.forward.recv_send hr (fun hdn _ => ?_) fun hdd => ⟨hdd.1, ?_⟩
    · rcases hr.state_cases with h1 | h1 | ⟨-, -, h1, -⟩ | ⟨h1, -⟩ | ⟨h1, -⟩
      · exact .inl h1
      · rwa [Done, h1]
      · exact absurd h1 hb
      all_goals simp [Done, h1] at hdn
    · exact not_has_append hdd.2 (hr.no_out nofun)
  refine hbc.recv_read hr (fun ho hdd => ?_) (fun hd hq => ?_) fun hdd => hdd.recv_opener hr hb
  · rcases hdd with h1 | ⟨h1, -⟩ <;> simp [h1] at ho
  -- data for a stream that takes none: the opener is gone, or waits in vain
  rcases hr.data_cases hd with ⟨rfl, -⟩ | ⟨-, h1 | ⟨h1, hno, hnh⟩⟩
  · cases hq
  · exact .inl h1
  by_cases hdd : DeadOpener (v.ent X) (v.ent X.peer) (v.fly X.peer) (f :: rest)
  · exact hdd.recv_opener hr hb
  exfalso
  have hdt : Has .data (f :: rest) := has_cons.2 (.inl hd)
  rcases hx : stateOf (v.ent X) with _ | st
  · exact hdd (.inl hx)
  cases st
  case synSent =>
    have hw := (hh.waiting hx).resolve_left hdd f (by simp [hd])
    exact hw.1 hd
  case halfClosedRemote => exact (hbc.ended (hbc.remote hx)).1 hdt
  case synReceived => exact hh.x_state.1 hx
  case closed => exact hh.x_state.2 hx
  case «open» => exact hno hx
  case halfClosedLocal => exact hnh hx

lemma recv_acceptor (h : Wf X v) (hf : v.fly X.peer = f :: rest)
    (hr : RecvStep w owned False f (v.ent X.peer) b out e ev) :
    Wf X ((v.pop X.peer rest).move X.peer b out e) := by
  have hh := h.handshake
  have hfr := h.forward
  have hb := h.back
  rw [hf] at hh hfr hb
  have hfl := move_fly_peer (v := v.pop X.peer rest) (r := X.peer) b out e
  have hen := move_ent_peer (v := v.pop X.peer rest) (r := X.peer) b out e
  have hl := move_log_peer (v := v.pop X.peer rest) (r := X.peer) b out e
  have hp := pop_fly_peer (v := v) (r := X.peer) rest
  rw [peer_peer] at hfl hen hl hp
  refine ⟨?_, ?_, ?_⟩ <;> simp only [move_ent, move_fly, move_log, pop_fly,
    pop_ent, pop_log, hfl, hen, hl, hp]
  · exact hh.recv_acceptor hr
  · refine hfr.recv_read hr (fun ho hdd => ?_) (fun hd hq => ?_) fun hdd => ?_
    · simp [hdd.1] at ho
    · -- data for a stream that takes none: it is gone, as no `Begin` is left behind data
      rcases hr.data_cases hd with ⟨rfl, -⟩ | ⟨-, h1 | ⟨h1, hno, hnh⟩⟩
      · cases hq
      · exact ⟨h1, hh.first⟩
      refine ⟨?_, hh.first⟩
      have hdt : Has .data (f :: rest) := has_cons.2 (.inl hd)
      rcases hy : stateOf (v.ent X.peer) with _ | st
      · exact h1.trans hy
      exfalso
      cases st
      case synSent => exact hh.y_state.1 hy
      case halfClosedRemote => exact (hfr.ended (hfr.remote hy)).1 hdt
      case synReceived => exact (hh.early (.inr hy)).forward (.inl hdt)
      case closed => exact hh.y_state.2 hy
      case «open» => exact hno hy
      case halfClosedLocal => exact hnh hy
    · obtain ⟨hy, hA⟩ := hdd
      rw [has_cons, not_or] at hA
      refine ⟨?_, hA.2⟩
      rcases hr.state_cases with h1 | h1 | ⟨-, -, h1, -⟩ | ⟨h1, -⟩ | ⟨h1, -⟩
      · exact h1
      · exact h1.trans hy
      · exact absurd h1 hA.1
      all_goals simp [hy] at h1
  · refine hb.recv_send hr (fun hdn he => ?_) fun hdd => hdd.recv_acceptor hr
    rcases hr.state_cases with h1 | h1 | ⟨-, -, h1, -⟩ | ⟨h1, -⟩ | ⟨h1, -⟩
    · exact .inl h1
    · rwa [Done, h1]
    · -- a `Begin` still on its way: nothing has come back yet
      have hel := hh.early (.inl (has_cons.2 (.inl h1)))
      rcases he with he | he
      · exact absurd (.inr he) hel.back.1
      · rw [hel.ended.1] at he
        cases he
    all_goals simp [Done, h1] at hdn

lemma of_noTrace (hv : v.NoTrace) (hl : ∀ r, v.log r = {}) : Wf X v := by
  have he := fun r => (hv r).1
  have hf := fun r => (hv r).2
  refine ⟨?_, ?_, ?_⟩ <;> simp only [he, hf, hl]
  · exact
      { x_state := by simp
        y_state := by simp
        forward := by simp
        back := by simp
        first := by simp
        before := by simp
        early := by simp
        waiting := by simp }
  · exact ⟨by simp, by simp, by simp, by simp, .inl (by simp)⟩
  · exact ⟨by simp, by simp, by simp, by simp, .inl (by simp)⟩

end Wf

/-- A step of one stream keeps its view well formed. -/
lemma wf_step {window : StreamRole → UInt32} {id : UInt32} {mute : Prop} {v v' : View}
    (h : Wf (.opener id) v) (hs : StreamStep window id mute v v') : Wf (.opener id) v' := by
  cases hs with
  | opened r body hr hv =>
    rw [eq_opener hr]
    exact .opened rfl
  | call r b out e hc he hm =>
    rcases (opener id).eq_or_eq_peer r with rfl | rfl
    · exact h.call_opener hc he
    · exact h.call_acceptor hc he
  | recv r f rest b out e ev hf hr =>
    rcases (opener id).eq_or_eq_peer r with rfl | rfl
    · exact h.recv_opener hf hr
    · exact h.recv_acceptor hf hr

namespace Net

/-- What was surfaced is a prefix of what the peer consumed, and all of it with the end. -/
def InOrder (n : Net) : Prop := ∀ r id, (n.log r id).surfaced <+: (n.log r.peer id).consumed ∧
  ((n.log r id).ended = true → (n.log r id).surfaced = (n.log r.peer id).consumed)

/-- A delivery leaves every other stream alone: its entries, its logs and its frames. -/
def Apart (n : Net) : NetEvent → Prop
  | .deliver r => ∀ f ∈ (n.chan r).head?, ∀ id, id ≠ f.streamId →
      (n.step (.deliver r)).view id = n.view id
  | _ => True

lemma apart (n : Net) (ev : NetEvent) : n.Apart ev := by
  cases ev with
  | call r c => trivial
  | deliver r =>
    intro f hf id hid
    obtain ⟨rest, hc⟩ := head?_eq_some_iff.1 hf
    exact view_deliver_ne hc hid

def WfAll (policy : StreamRole → MuxPolicy) (n : Net) : Prop :=
  Sane policy n ∧ ∀ id, Wf (.opener id) (n.view id)

lemma wfAll_init (policy : StreamRole → MuxPolicy) : WfAll policy (init policy) :=
  ⟨sane_init, fun id => .of_noTrace (noTrace_init policy id) (fun _ => rfl)⟩

variable {policy : StreamRole → MuxPolicy}

lemma wfAll_step (n : Net) (ev : NetEvent)
    (hn : WfAll policy n) (hev : n.FreshOpen ev ∧ n.RoomToReset ev) : WfAll policy (n.step ev) := by
  refine ⟨sane_step ev hn.1, fun id => ?_⟩
  rcases step_view True hn.1 ev hev.1 (.inl trivial) hev.2 with hsm | hs
  · rw [hsm]
    exact hn.2 id
  · exact wf_step (hn.2 id) hs

lemma inOrder_of_wfAll {n : Net} (hn : WfAll policy n) : n.InOrder := by
  intro r id
  have hwf := hn.2 id
  rcases (opener id).eq_or_eq_peer r with rfl | rfl
  · exact ⟨hwf.back.surfaced_prefix, fun he => (hwf.back.ended he).2.2⟩
  · rw [peer_peer]
    exact ⟨hwf.forward.surfaced_prefix, fun he => (hwf.forward.ended he).2.2⟩

/-- If opened ids have left no trace and overruns are answered, streams are in order. -/
theorem inOrder_of_fresh (policy : StreamRole → MuxPolicy) (evs : List NetEvent)
    (h : Along step (fun n ev => n.FreshOpen ev ∧ n.RoomToReset ev) (init policy) evs) :
    (run step (init policy) evs).InOrder ∧ Along step Apart (init policy) evs :=
  ⟨inOrder_of_wfAll (inv_run wfAll_step _ evs (wfAll_init policy) h),
    along_of_inv (I := fun _ => True) (fun _ _ _ _ => trivial) (fun n ev _ _ => n.apart ev) _ evs
      trivial h⟩

theorem inOrder_of_fresh_halfClosed :
    let evs : List NetEvent := [.call .initiator (.openLocal (.ipv4 #v[127, 0, 0, 1] 80)),
      .call .initiator .pendingOutbound, .deliver .responder, .call .responder (.accept 2),
      .call .responder (.sendData 2 [1, 2]), .call .responder .pendingOutbound, .deliver .initiator,
      .deliver .initiator, .call .initiator (.sendData 2 [3]), .call .initiator (.endLocal 2),
      .call .initiator .pendingOutbound, .deliver .responder, .deliver .responder]
    Along step (fun n ev => n.FreshOpen ev ∧ n.RoomToReset ev) (init fun _ => .default) evs ∧
    (run step (init fun _ => .default) evs).InOrder ∧
      Along step Apart (init fun _ => .default) evs :=
  ⟨by decide +kernel, inOrder_of_fresh _ _ (by decide +kernel)⟩

section Reused

def Idle (n : Net) : NetEvent → Prop
  | .call r c => (c.effect ((n.side r).call c).1).2 = .quiet ∨
      (c.effect ((n.side r).call c).1).2 = .opened
  | .deliver r => ∀ f ∈ (n.chan r).head?, (recvEffect ((n.side r).recv f).1).2 = .quiet

instance (n : Net) : DecidablePred n.Idle := fun e => by
  induction e using NetEvent.casesOn <;> delta Idle <;> infer_instance

lemma blank_step (n : Net) (ev : NetEvent) (hn : n.log = fun _ _ => {}) (h : n.Idle ev) :
    (n.step ev).log = fun _ _ => {} := by
  cases ev with
  | call r c =>
    rcases h with h | h
    · exact (logged_quiet h).trans hn
    · funext r' id
      simp only [step, logged, hn, h, Log.after, ite_self]
  | deliver r =>
    rcases hf : n.chan r with _ | ⟨f, rest⟩
    · simpa only [step, hf] using hn
    · rw [step_deliver hf]
      exact (logged_quiet (h f (by rw [hf]; rfl))).trans hn

def stale (next : UInt32) : Net where
  side
    | .initiator => { MuxState.new .initiator .default with outbound := [⟨1, .beginOk, []⟩] }
    | .responder => { MuxState.new .responder .default with next := next }
  chan _ := []
  log _ _ := {}

def address : MuxTarget := .ipv4 localhost 80

def resetEarly : List NetEvent :=
  [.call .responder (.openLocal address), .call .responder .pendingOutbound, .deliver .initiator,
    .call .initiator (.accept 1), .call .responder (.reset 1 0), .call .responder .pendingOutbound,
    .deliver .initiator]

lemma run_resetEarly : run step (init fun _ => .default) resetEarly = stale 3 := by
  have hs : (run step (init fun _ => .default) resetEarly).side = (stale 3).side := by
    funext r
    cases r <;> rfl
  have hc : (run step (init fun _ => .default) resetEarly).chan = (stale 3).chan := by
    funext r
    cases r <;> rfl
  have hl : (run step (init fun _ => .default) resetEarly).log = fun _ _ => {} :=
    inv_run blank_step _ _ rfl (by decide +kernel)
  exact Net.ext hs hc hl

def refused : NetEvent := .call .responder (.openLocal (.ipv4 localhost 0))

lemma step_refused {next : UInt32} (ho : next % 2 = 1) :
    (stale next).step refused = stale (next + 2) := by
  have ha : responder.allocate next = some next := by
    have hne : next ≠ 0 := by
      rintro rfl
      cases ho
    simp only [allocate, ho, hne, decide_true, if_true, if_false]
  have hc : ((stale next).side .responder).call (.openLocal (.ipv4 localhost 0)) =
      (.error (.target .zeroPort), (stale (next + 2)).side .responder) := by
    simp only [MuxState.call, MuxState.openLocal, stale, MuxState.new, ha]
    rfl
  rw [refused, step_call (c := .openLocal (.ipv4 localhost 0)) (by rintro ⟨⟩), hc]
  refine Net.ext ?_ rfl (logged_quiet rfl)
  funext r
  cases r <;> rfl

lemma run_refused (k : ℕ) {next : UInt32} (ho : next % 2 = 1) :
    run step (stale next) (replicate k refused) = stale (next + UInt32.ofNat (2 * k)) := by
  induction k generalizing next with
  | zero => simp
  | succ k ih =>
    have ho' : (next + 2) % 2 = 1 := by
      have hn : next.toNat % 2 = 1 := congrArg UInt32.toNat ho
      refine UInt32.toNat_inj.1 ?_
      exact (by omega : (next.toNat + 2) % 2 ^ 32 % 2 = 1)
    have ha : next + 2 + UInt32.ofNat (2 * k) = next + UInt32.ofNat (2 * (k + 1)) := by
      rw [Nat.mul_succ, UInt32.ofNat_add, UInt32.add_assoc, UInt32.add_comm 2]
      rfl
    rw [replicate_succ, run_cons, step_refused ho, ih ho', ha]

/-- A stale `BeginOk` opens stream `1` anew, and its first data is dropped. -/
def reuse : List NetEvent :=
  [.call .responder (.openLocal address), .call .responder .pendingOutbound,
    .call .initiator .pendingOutbound, .deliver .responder, .call .responder (.sendData 1 [0xd1]),
    .call .responder .pendingOutbound, .deliver .initiator, .deliver .initiator,
    .call .initiator (.accept 1), .call .responder (.sendData 1 [0xd2]),
    .call .responder .pendingOutbound, .deliver .initiator]

/-- Of the two bytes the responder sent only the second is surfaced. -/
theorem not_inOrder_reuse :
    let n := run step (init fun _ => .default) (resetEarly ++
      List.replicate (2 ^ 31 - 1) refused ++ reuse)
    (n.log .responder 1).consumed = [0xd1, 0xd2] ∧ (n.log .initiator 1).surfaced = [0xd2] := by
  simp only [run_append, run_resetEarly,
    run_refused (2 ^ 31 - 1) (show (3 : UInt32) % 2 = 1 by decide)]
  decide +kernel

end Reused

end Net

end Mirage.Mux
