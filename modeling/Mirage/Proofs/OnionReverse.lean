import Mirage.Proofs.BridgeSteps
import Mirage.Proofs.OnionForward

/-!
# The way back

The cells are a line of queues: behind bridge `k`, payload `i` stands under the layers of the
bridges up to `k`. An `EXTENDED` flight enters one bridge further on.
-/

namespace Mirage.Circuits

open Words Runs Pipeline Records Function RelaySubCell BridgeCircuitState List Nat ForwardChain

variable {A : Aead} {bc : BridgeCircuitState} {now : Instant} {msg : Bytes} {cell : Cell} {β : Type}
  {low i k : ℕ} {rest : List Cell}

namespace BridgeCircuitState

variable {id : UInt32} {e : CircuitEntry} {keys : HopKeys}

lemma handleRelayFromNext_eq (hA : A.Lawful) (hid : id ≠ 0)
    (he : bc.circuits.lookup id = some e) (hs : e.state = .open)
    (hk : e.prevKeys = some keys) (hr : e.reverseSeq + 1 < 2 ^ 64) {body : Bytes}
    (hf : body.length + 16 ≤ maxCellPayload) :
    bc.handleRelayFromNext A id body now =
      (.ok [.sendToPrev id
        ⟨id, cmdRelay, sealed A keys.reverse body dirHopToClient e.reverseSeq⟩],
        bc.setEntry id { e with reverseSeq := e.reverseSeq + 1, lastActivity := now }) := by
  have hle : body.length ≤ maxCellPayload := le_of_add_right_le hf
  have hsc : checkedSucc e.reverseSeq = some (e.reverseSeq + 1) :=
    checkedSucc_eq_some.2 ⟨rfl, hr⟩
  have hl : (sealed A keys.reverse body dirHopToClient e.reverseSeq).length ≤ maxCellPayload :=
    (length_sealed hA hle).trans_le hf
  unfold handleRelayFromNext
  simp [he, hs, hk, onionSeal_eq hA hle, hsc, Cell.new_relay hid hl]

end BridgeCircuitState

def RelaySubCell.bytes (sub : RelaySubCell) : Bytes :=
  sub.command :: beBytes 2 sub.body.length ++ sub.body

lemma RelaySubCell.length_bytes (sub : RelaySubCell) : sub.bytes.length = 3 + sub.body.length := by
  simp [bytes]
  omega

lemma encodeFragments_spec {cap : ℕ} (hm : msg.length ≤ cap) {maxBody : ℕ}
    (hmx : 2 ≤ maxBody) : ∃ first conts, encodeFragments cap msg maxBody = .ok (first, conts) ∧
      first.length ≤ maxBody ∧ ∀ body ∈ conts, body.length ≤ maxBody := by
  unfold encodeFragments
  rw [if_neg (not_lt.2 hm), if_neg (not_lt.2 hmx)]
  refine ⟨_, _, rfl, ?_, fun body hb => length_le_of_mem_chunks hb⟩
  simp only [length_append, length_beBytes, length_take]
  omega

lemma flightCells_spec (h : msg.length ≤ 65535) :
    ∃ first conts, ExtendedBody.encodeFragmented msg innerMax = .ok (first, conts) ∧
      ∀ sub ∈ flightCells msg, sub.body.length ≤ innerMax := by
  have hm : 2 ≤ innerMax := by decide
  obtain ⟨first, conts, hf, hh, ht⟩ := encodeFragments_spec h hm
  refine ⟨first, conts, hf, fun sub hs => ?_⟩
  unfold flightCells ExtendedBody.encodeFragmented at hs
  rw [hf] at hs
  rcases mem_cons.1 hs with rfl | hs
  · exact hh
  · obtain ⟨body, hb, rfl⟩ := mem_map.1 hs
    exact ht body hb

lemma RelaySubCell.encode_eq {sub : RelaySubCell}
    (h : sub.body.length ≤ innerMax) : sub.encode = .ok sub.bytes :=
  encode_eq_ok.2 ⟨le_trans h (by decide), rfl⟩

lemma sealFlight_eq (hA : A.Lawful) {id : UInt32} (hid : id ≠ 0) (reverse : OnionLayer) :
    ∀ (subs : List RelaySubCell) (seq : ℕ),
      (∀ sub ∈ subs, sub.body.length ≤ innerMax) →
      seq + subs.length < 2 ^ 64 →
      sealFlight A id reverse (subs.map fun sub => (sub.command, sub.body)) seq =
        (.ok (subs.mapIdx fun j sub => .sendToPrev id
          ⟨id, cmdRelay, sealed A reverse sub.bytes dirHopToClient (seq + j)⟩), seq + subs.length)
  | [], _, _, _ => rfl
  | sub :: subs, seq, hb, hr => by
    have hbd := hb sub mem_cons_self
    have hby : sub.bytes.length ≤ 969 := by
      rw [sub.length_bytes]
      exact Nat.add_le_add_left hbd 3
    have hle : sub.bytes.length ≤ maxCellPayload := le_trans hby (by decide)
    have hl : (sealed A reverse sub.bytes dirHopToClient seq).length ≤ maxCellPayload := by
      rw [length_sealed hA hle]
      exact Nat.le_trans (Nat.add_le_add_right hby 16) (by decide)
    rw [length_cons] at hr
    have hs : checkedSucc seq = some (seq + 1) := checkedSucc_eq_some.2 ⟨rfl, by omega⟩
    have ih := sealFlight_eq hA hid reverse subs (seq + 1)
      (fun sub' hs' => hb sub' (mem_cons_of_mem sub hs')) (by omega)
    rw [map_cons, sealFlight]
    simp only [encode_eq hbd, onionSeal_eq hA hle, hs,
      Cell.new_relay hid hl, ih, mapIdx_cons, length_cons, add_zero]
    simp [add_comm, add_left_comm]

namespace BridgeCircuitState

variable {id : UInt32} {e : CircuitEntry} {keys : HopKeys}

lemma recordExtendComplete_eq (now : Instant) (hA : A.Lawful) (hid : id ≠ 0)
    (he : bc.circuits.lookup id = some e) (hs : e.state = .extending)
    (hv : e.extendViaRelay = true) (hk : e.prevKeys = some keys) (hm : msg.length ≤ 65535)
    (hr : e.reverseSeq + (flightCells msg).length < 2 ^ 64) :
    bc.recordExtendComplete A id msg now =
      (.ok ((flightCells msg).mapIdx fun j sub => .sendToPrev id
        ⟨id, cmdRelay, sealed A keys.reverse sub.bytes dirHopToClient (e.reverseSeq + j)⟩),
        bc.setEntry id
          { e with
            state := .open, stateEntered := now, lastActivity := now, pendingCreated := none
            reverseSeq := e.reverseSeq + (flightCells msg).length }) := by
  obtain ⟨first, conts, hf, hb⟩ := flightCells_spec hm
  have hc : flightCells msg = ⟨cmdExtended, first⟩ :: conts.map (⟨cmdExtendedCont, ·⟩) := by
    unfold flightCells
    rw [hf]
  have hp : (cmdExtended, first) :: conts.map (cmdExtendedCont, ·) =
      (flightCells msg).map fun sub => (sub.command, sub.body) := by
    rw [hc, map_cons, map_map]
    rfl
  unfold recordExtendComplete emitExtended
  simp [he, hs, hv, hk, hf, hp, sealFlight_eq hA hid _ _ _ hb hr]

lemma processInboundFromPrev_steady (he : bc.circuits.lookup id = some e)
    (hs : cell.circId = id → (bc.prevOrder A cell now).disrupts = false) :
    ∃ e', (bc.processInboundFromPrev A cell now).2.circuits.lookup id = some e' ∧
      e'.state = e.state ∧ e'.prevKeys = e.prevKeys ∧ e'.reverseSeq = e.reverseSeq ∧
      e'.extendViaRelay = e.extendViaRelay := by
  have hef : Effect bc _ _ (bc.processInboundFromPrev A cell now) :=
    (processInboundFromPrev_does cell now).effect
  by_cases hid : id = cell.circId
  · have hd := hs hid.symm
    obtain ⟨e', he'⟩ := Option.isSome_iff_exists.1 (hef.isSome (by rw [he]; rfl))
    refine ⟨e', he', ?_⟩
    rcases hef.entry he' with hol | ⟨-, hb⟩
    · obtain rfl := Option.some.inj (he.symm.trans hol)
      exact ⟨rfl, rfl, rfl, rfl⟩
    subst hid
    cases hb with
    | made now ho hn => simp [he] at hn
    | turned he₀ ht =>
      obtain rfl := Option.some.inj (he.symm.trans he₀)
      exact ht.steady hd prevOrder_answers
    | linked he₀ hst ha =>
      rcases ha with ⟨ho, -⟩ | hc
      · rw [ho] at hd
        cases hd
      · rw [hc.disrupts] at hd
        cases hd
  · exact ⟨e, (hef.lookup_ne hid).trans he, rfl, rfl, rfl, rfl⟩

end BridgeCircuitState

namespace ReverseChain

open BridgeCircuitState

/-- No forward cell extends or ends its circuit, and the counters have room. -/
def Undisturbed (A : Aead) (id : ℕ → UInt32) (s : ReverseChain) : ReverseEvent → Prop
  | .forward k cell now => cell.circId = id k → ((s.bridge k).prevOrder A cell now).disrupts = false
  | .reply _ _ => HasRoom id s 0 1
  | .relay k _ => HasRoom id s (k + 1) 1
  | .extended hsMsg2 _ => HasRoom id s 1 (flightCells hsMsg2).length
  | .receive => True
  | .extend _ => True

instance (A : Aead) (id : ℕ → UInt32) (s : ReverseChain) :
    DecidablePred (Undisturbed A id s) := fun e => by
  induction e using ReverseEvent.casesOn <;> delta Undisturbed <;> infer_instance

def sentBy (i : UInt32) : BridgeAction → Option Cell
  | .sendToPrev j cell => if j = i then some cell else none
  | _ => none

variable {id : ℕ → UInt32} {n : ℕ} {s : ReverseChain}

lemma foldl_perform : ∀ (actions : List BridgeAction) (s : ReverseChain),
    actions.foldl (perform id k) s =
      { s with
        queue := update s.queue k (s.queue k ++ actions.filterMap (sentBy (id k))) }
  | [], s => by simp
  | a :: actions, s => by
    rw [foldl_cons, foldl_perform]
    cases a with
    | sendToPrev i cell =>
      unfold perform
      by_cases hi : i = id k <;> simp [sentBy, hi]
    | performHandshake | openNextHop | sendToNext | destroyPrevLink | destroyNextLink
    | relayPayloadAtExit | forwardExtendFinishToNext | verifyExtendFinish => rfl

lemma callAt_eq (c : BridgeCall) : s.callAt A id k c =
      { s with
        bridge := update s.bridge k ((s.bridge k).call A c).2
        queue := update s.queue k
          (s.queue k ++ (actionsOf ((s.bridge k).call A c).1).filterMap (sentBy (id k))) } := by
  unfold callAt
  rw [foldl_perform]

section Line

variable (A) (keys : ℕ → HopKeys) (base : ℕ → ℕ) (m : ℕ) (replies : List Bytes)

/-- The counter of bridge `k` when it has `i` items behind it, the `m` cells of the flight among
them. -/
def seqAt (k i : ℕ) : ℕ := base k + (i - if k = 0 then m else 0)

def stackAt : ℕ → ℕ → Bytes
  | 0, i => replies.getD i []
  | k + 1, i =>
    if k = 0 ∧ i < m then stackAt k i
    else sealed A (keys k).reverse (stackAt k i) dirHopToClient (seqAt base m k i)

variable (id) in
def cellAt (k i : ℕ) : Cell := ⟨id k, cmdRelay, stackAt A keys base m replies (k + 1) i⟩

def path {β : Type} (f : ℕ → β) (low : ℕ) : ℕ → List β
  | 0 => []
  | len + 1 => f (low + len) :: path f low len

def back (h : CircuitHop) : OnionLayer × ℕ := (h.reverse, h.h2cSeq)

def backAt (i k : ℕ) : OnionLayer × ℕ := ((keys k).reverse, seqAt base m k i)

/-- Bridge `k` has `i` items behind it, and seals or waits. -/
structure Carries (bc : BridgeCircuitState) (id : UInt32) (waits : Prop) (k i : ℕ)
    (e : CircuitEntry) : Prop where
  entry : bc.circuits.lookup id = some e
  prevKeys : e.prevKeys = some (keys k)
  counter : e.reverseSeq = seqAt base m k i
  bound : e.reverseSeq < 2 ^ 64
  waiting : waits → e.state = .extending ∧ e.extendViaRelay = true
  running : ¬ waits → e.state = .open

variable {A} {keys} {base} {m} {replies}

lemma path_eq (f : ℕ → β) : ∀ len, path f low len = ((range' low len).map f).reverse
  | 0 => rfl
  | len + 1 => by simp [path, path_eq, range'_1_concat]

lemma length_path (f : ℕ → β) (low len : ℕ) : (path f low len).length = len := by
  simp [path_eq]

lemma path_succ (f : ℕ → β) (len : ℕ) : path f low (len + 1) = path f (low + 1) len ++ [f low] := by
  simp [path_eq, range'_succ]

variable {len j : ℕ} {f : ℕ → β}

lemma getElem?_path (f : ℕ → β) (low : ℕ) {k : ℕ} (hk : k < len) :
    (path f low len)[len - 1 - k]? = some (f (low + k)) := by
  have hi : len - 1 - (len - 1 - k) = k := by omega
  rw [path_eq, getElem?_reverse (by simp; omega)]
  simp [hi, hk]

lemma eq_path {l : List β} (hln : l.length = len)
    (h : ∀ k < len, ∀ x, l[len - 1 - k]? = some x → x = f (low + k)) : l = path f low len := by
  refine ext_getElem (hln.trans (length_path f low len).symm) fun j hj hj' => ?_
  have hk : len - 1 - (len - 1 - j) = j := by omega
  have hl := h (len - 1 - j) (by omega) l[j] (by rw [hk]; exact getElem?_eq_getElem hj)
  have hlt : len - 1 - j < len := by omega
  have hp := getElem?_path f low hlt
  rw [hk, getElem?_eq_getElem hj'] at hp
  exact hl.trans (Option.some.inj hp).symm

lemma mem_path {x : β} : x ∈ path f low len ↔ ∃ k, (low ≤ k ∧ k < low + len) ∧ f k = x := by
  simp [path_eq]

lemma map_path {γ : Type} (g : β → γ) (f : ℕ → β) (len : ℕ) :
    (path f low len).map g = path (g ∘ f) low len := by
  simp [path_eq]

lemma path_congr {g : ℕ → β} (h : ∀ k, low ≤ k → k < low + len → f k = g k) :
    path f low len = path g low len := by
  rw [path_eq, path_eq, map_congr_left fun k hk => ?_]
  exact h k (mem_range'_1.1 hk).1 (mem_range'_1.1 hk).2

lemma stackAt_append (hi : i < replies.length) (payload : Bytes) :
    ∀ k, stackAt A keys base m (replies ++ [payload]) k i = stackAt A keys base m replies k i
  | 0 => by
    rw [stackAt, stackAt, getD_eq_getElem?_getD, getElem?_append_left hi, ← getD_eq_getElem?_getD]
  | k + 1 => by rw [stackAt, stackAt, stackAt_append hi payload k]

lemma length_stackAt (hA : A.Lawful) (hs : ∀ p ∈ replies, p.length ≤ 969) :
    ∀ {k : ℕ}, k ≤ 3 → (stackAt A keys base m replies k i).length ≤ 969 + 16 * k
  | 0, _ => by
    rw [stackAt, getD_eq_getElem?_getD]
    cases h : replies[i]? with
    | none => exact zero_le _
    | some p => exact hs p (mem_of_getElem? h)
  | k + 1, hk => by
    have ih := length_stackAt hA hs (k := k) (by omega)
    have hc : maxCellPayload = 1017 := rfl
    rw [stackAt]
    split_ifs
    · omega
    · rw [length_sealed hA (by omega)]
      omega

lemma stackAt_flight (hi : i < m) : stackAt A keys base m replies 1 i = replies.getD i [] :=
  if_pos ⟨rfl, hi⟩

lemma stackAt_succ (h : k = 0 → m ≤ i) : stackAt A keys base m replies (k + 1) i =
      sealed A (keys k).reverse (stackAt A keys base m replies k i) dirHopToClient
        (seqAt base m k i) := by
  rw [stackAt, if_neg]
  rintro ⟨hk, hi⟩
  omega

lemma openHops_stackAt (hA : A.Lawful) (hsh : ∀ p ∈ replies, p.length ≤ 969)
    (hlw : low = 0 → m ≤ i) : ∀ {len : ℕ} {hops : List CircuitHop}, low + len ≤ 3 →
    hops.map back = path (backAt keys base m i) low len →
    Circuit.openHops A 0 hops (stackAt A keys base m replies (low + len) i) =
      .ok (stackAt A keys base m replies low i)
  | 0, hops, _, hp => by
    obtain rfl : hops = [] := map_eq_nil_iff.1 hp
    rfl
  | len + 1, [], _, hp => by cases hp
  | len + 1, h :: hs, hle, hp => by
    rw [map_cons, path, cons.injEq, back, backAt, Prod.mk.injEq] at hp
    obtain ⟨⟨hl, hsq⟩, hr⟩ := hp
    have hln : (stackAt A keys base m replies (low + len) i).length ≤ 969 + 16 * (low + len) :=
      length_stackAt hA hsh (by omega)
    have hc : maxCellPayload = 1017 := rfl
    rw [← add_assoc, stackAt_succ (fun h0 => hlw (by omega)), Circuit.openHops, hl, hsq,
      onionOpen_sealed hA (by omega)]
    exact openHops_stackAt hA hsh hlw (by omega) hr

lemma seqAt_add (hij : i ≤ j) (h : k = 0 → m ≤ i) :
    seqAt base m k j = seqAt base m k i + (j - i) := by
  unfold seqAt
  split_ifs with hk
  · omega
  · omega

/-- The bridge before the exit waits for its `CREATED`. -/
def Waits (s : ReverseChain) (k : ℕ) : Prop := k = 1 ∧ s.stage = .extending

def lowest (s : ReverseChain) : ℕ := if s.stage = .joined then 0 else 1

variable (A) (id) (n) (keys) (base) in
/-- The links hold the answers under their layers. -/
structure Flow (s : ReverseChain) (passed : ℕ → ℕ) : Prop where
  live : s.client.destroyed = false
  epoch : s.client.epoch = 0
  ids : ∀ k < n, id k ≠ 0
  links : ∀ k, k + 1 < n → (s.bridge (k + 1)).outToIn.lookup (id k) = some (id (k + 1))
  line : Holds n (cellAt A id keys base s.flight s.replies) s.queue passed
  entered : passed 0 = s.replies.length
  flown : s.flight ≤ passed 1
  received : s.received = s.replies.take (passed n)
  short : ∀ p ∈ s.replies, p.length ≤ 969
  early : s.stage ≠ .joined → 1 < n ∧ base 0 = 0
  silent : s.stage = .extending → s.replies = [] ∧ s.flight = 0
  flying : s.stage = .flying → passed n ≤ s.flight
  joined : s.stage = .joined → s.flight ≤ passed n
  client : s.client.hops.map back =
    path (backAt keys base s.flight (passed n)) s.lowest (n - s.lowest)
  bridge : ∀ k < n, ∃ e, Carries keys base s.flight (s.bridge k) (id k) (s.Waits k) k (passed k) e

variable {passed : ℕ → ℕ}

section

variable (h : Flow A id n keys base s passed)

include h

lemma Flow.passed_le (hk : k ≤ n) : passed k ≤ s.replies.length := by
  rw [← h.entered]
  exact h.line.antitone (zero_le k) hk

lemma Flow.behind (hn : 1 ≤ n) (hk : k < n) : k = 0 → s.flight ≤ passed k := by
  rintro rfl
  exact le_trans h.flown (h.line.antitone (zero_le 1) hn)

lemma Flow.seals (hA : A.Lawful) (hn : n ≤ 3) (hk : k < n)
    (hw : ¬ s.Waits k) (hr : HasRoom id s k 1) {body : Bytes}
    (hb : body.length ≤ 969 + 16 * k) (now : Instant) :
    ∃ e, Carries keys base s.flight (s.bridge k) (id k) (s.Waits k) k (passed k) e ∧
      (s.bridge k).handleRelayFromNext A (id k) body now =
        (.ok [.sendToPrev (id k) ⟨id k, cmdRelay,
          sealed A (keys k).reverse body dirHopToClient (seqAt base s.flight k (passed k))⟩],
          (s.bridge k).setEntry (id k)
            { e with reverseSeq := e.reverseSeq + 1, lastActivity := now }) ∧
      Carries keys base s.flight ((s.bridge k).setEntry (id k)
        { e with reverseSeq := e.reverseSeq + 1, lastActivity := now }) (id k) (s.Waits k) k
        (passed k + 1) { e with reverseSeq := e.reverseSeq + 1, lastActivity := now } := by
  obtain ⟨e, he⟩ := h.bridge k hk
  have hlt : e.reverseSeq + 1 < 2 ^ 64 := hr e he.entry
  have hc : maxCellPayload = 1017 := rfl
  have hs : seqAt base s.flight k (passed k + 1) = seqAt base s.flight k (passed k) + _ :=
    seqAt_add (le_succ (passed k)) (h.behind (by omega) hk)
  refine ⟨e, he, ?_, AList.lookup_insert _, he.prevKeys, ?_, hlt, he.waiting, he.running⟩
  · rw [handleRelayFromNext_eq hA (h.ids k hk) he.entry (he.running hw) he.prevKeys hlt
      (by omega), he.counter]
  · change e.reverseSeq + 1 = _
    rw [hs, he.counter]
    omega

lemma Flow.links_update
    (hbc : ∀ out i, (s.bridge k).outToIn.lookup out = some i → bc.outToIn.lookup out = some i) :
    ∀ j, j + 1 < n → (update s.bridge k bc (j + 1)).outToIn.lookup (id j) = some (id (j + 1)) := by
  intro j hj
  rcases eq_or_ne (j + 1) k with rfl | hne
  · rw [update_self]
    exact hbc _ _ (h.links j hj)
  · rw [update_of_ne hne]
    exact h.links j hj

lemma Flow.forward (hk : k < n) (hok : Undisturbed A id s (.forward k cell now)) :
    Flow A id n keys base (s.callAt A id k (.fromPrev cell now)) passed := by
  have hef : Effect (s.bridge k) _ _ ((s.bridge k).processInboundFromPrev A cell now) :=
    (processInboundFromPrev_does cell now).effect
  have hn : (actionsOf ((s.bridge k).call A (.fromPrev cell now)).1).filterMap (sentBy (id k)) =
      [] := by
    refine filterMap_eq_nil_iff.2 fun a ha => ?_
    cases a with
    | sendToPrev i c =>
      exact absurd ha (hef.not_sendToPrev prevOrder_answers)
    | performHandshake | openNextHop | sendToNext | destroyPrevLink | destroyNextLink
    | relayPayloadAtExit | forwardExtendFinishToNext | verifyExtendFinish => rfl
  rw [callAt_eq, hn, append_nil, update_eq_self]
  refine
    { h with
      links := h.links_update fun _ _ => hef.outToIn_some
      bridge := fun j hj => ?_ }
  rcases eq_or_ne j k with rfl | hne
  · obtain ⟨e, he⟩ := h.bridge j hj
    obtain ⟨e', he', hs, hky, hsq, hv⟩ := processInboundFromPrev_steady he.entry hok
    dsimp only
    rw [update_self]
    refine ⟨e', he', hky.trans he.prevKeys, hsq.trans he.counter, hsq ▸ he.bound, fun hw => ?_,
      fun hw => hs.trans (he.running hw)⟩
    exact ⟨hs.trans (he.waiting hw).1, hv.trans (he.waiting hw).2⟩
  · dsimp only
    rw [update_of_ne hne]
    exact h.bridge j hj

lemma Flow.reply (hA : A.Lawful) (hps : 0 < n) (hn : n ≤ 3)
    (payload : Bytes) (hf : Follows id n s (.reply payload now))
    (hok : Undisturbed A id s (.reply payload now)) :
    Flow A id n keys base (s.step A id n (.reply payload now))
      (fun j => if j ≤ 0 then passed 0 + 1 else passed j) := by
  obtain ⟨hst, hl⟩ := hf
  have hwt : ¬ s.Waits 0 := fun hw => absurd hw.1 (by decide)
  have hb : payload.length ≤ 969 + 16 * 0 := le_trans hl (by decide)
  obtain ⟨e, he, hsl, hc⟩ := h.seals hA hn hps hwt hok hb now
  have hcl : (s.bridge 0).call A (.injectExitResponse (id 0) payload now) = _ := hsl
  have hsc :
      sealed A (keys 0).reverse payload dirHopToClient (seqAt base s.flight 0 (passed 0)) =
        stackAt A keys base s.flight (s.replies ++ [payload]) 1 (passed 0) := by
    rw [stackAt_succ fun _ => h.behind hps hps rfl, stackAt, getD_eq_getElem?_getD,
      h.entered, getElem?_concat_length, Option.getD_some]
  have hln :
      Holds n (cellAt A id keys base s.flight (s.replies ++ [payload])) s.queue passed := by
    refine h.line.congr fun k hk i hi => ?_
    have hlt := lt_of_lt_of_le hi (h.passed_le (le_of_lt hk))
    rw [cellAt, cellAt, stackAt_append hlt]
  have hpn : (if n ≤ 0 then passed 0 + 1 else passed n) = passed n := if_neg (not_le.2 hps)
  change Flow A id n keys base
    { s.callAt A id 0 (.injectExitResponse (id 0) payload now) with
      replies := s.replies ++ [payload] } _
  rw [callAt_eq, hcl]
  refine
    { h with
      line := ?_
      entered := ?_
      received := ?_
      short := ?_
      silent := fun hs => absurd hs hst
      flying := by rw [hpn]; exact h.flying
      joined := by rw [hpn]; exact h.joined
      client := by rw [hpn]; exact h.client
      bridge := ?_ }
  · have hen := hln.enter hps (fun j hj => absurd hj (not_lt_zero j)) 1
    rw [range'_one, map_singleton, cellAt, ← hsc] at hen
    simpa only [actionsOf, filterMap_cons, filterMap_nil, sentBy, if_true] using hen
  · rw [if_pos (le_refl 0), h.entered, length_append, length_singleton]
  · rw [hpn, h.received, take_append_of_le_length (h.passed_le le_rfl)]
  · intro p hp
    rcases mem_append.1 hp with hp | hp
    · exact h.short p hp
    · rw [mem_singleton.1 hp]
      exact le_trans hl (by decide)
  · intro j hj
    dsimp only
    rcases eq_or_ne j 0 with rfl | hne
    · exact ⟨_, hc⟩
    · rw [update_of_ne hne, if_neg (by omega)]
      exact h.bridge j hj

lemma Flow.relays (hA : A.Lawful) (hn : n ≤ 3) {now : Instant} (hf : Follows id n s (.relay k now))
    (hok : Undisturbed A id s (.relay k now)) (hq : s.queue k = cell :: rest) :
    ∃ e bc', Carries keys base s.flight bc' (id (k + 1)) (s.Waits (k + 1)) (k + 1)
        (passed (k + 1) + 1) e ∧ bc'.outToIn = (s.bridge (k + 1)).outToIn ∧
      (s.bridge (k + 1)).processInboundFromNext A cell now = (.ok [.sendToPrev (id (k + 1))
          (cellAt A id keys base s.flight s.replies (k + 1) (passed (k + 1)))], bc') := by
  obtain ⟨hk, hs⟩ := hf
  have hcl := (h.line.head (lt_of_succ_lt hk) hq).2.1
  have hwt : ¬ s.Waits (k + 1) := fun hw => hs (succ.inj hw.1) hw.2
  have hb : (stackAt A keys base s.flight s.replies (k + 1) (passed (k + 1))).length ≤
      969 + 16 * (k + 1) := length_stackAt hA h.short (by omega)
  obtain ⟨e, -, hsl, hc⟩ := h.seals hA hn hk hwt hok hb now
  refine ⟨_, _, hc, rfl, ?_⟩
  have hnx : (s.bridge (k + 1)).processInboundFromNext A cell now =
      (s.bridge (k + 1)).handleRelayFromNext A (id (k + 1)) cell.body now := by
    unfold processInboundFromNext
    rw [hcl, cellAt, h.links k hk]
    rfl
  rw [hnx, hcl, cellAt, hsl, cellAt, stackAt_succ fun h0 => absurd h0 (succ_ne_zero k)]

lemma Flow.relay (hA : A.Lawful) (hn : n ≤ 3) (hf : Follows id n s (.relay k now))
    (hok : Undisturbed A id s (.relay k now)) :
    ∃ passed', Flow A id n keys base (s.relay A id k now) passed' := by
  unfold ReverseChain.relay
  split
  · exact ⟨passed, h⟩
  rename_i cell rest hq
  obtain ⟨e, bc', hc, ho, hnx⟩ := h.relays hA hn hf hok hq
  have hk : k + 1 < n := hf.1
  have hcl : (s.bridge (k + 1)).call A (.fromNext cell now) = _ := hnx
  have hm := h.line.move hk hq
  have hp : ∀ j, passed j ≤ update passed (k + 1) (passed (k + 1) + 1) j := by
    intro j
    rcases eq_or_ne j (k + 1) with rfl | hne
    · rw [update_self]
      exact le_succ _
    · rw [update_of_ne hne]
  have hpn : update passed (k + 1) (passed (k + 1) + 1) n = passed n :=
    update_of_ne (ne_of_gt hk) _ _
  have hkp : k + 1 ≠ k := succ_ne_self k
  refine ⟨update passed (k + 1) (passed (k + 1) + 1), ?_⟩
  rw [callAt_eq]
  dsimp only
  rw [hcl]
  refine
    { h with
      links := h.links_update fun _ _ hol => ho ▸ hol
      line := ?_
      flown := le_trans h.flown (hp 1)
      received := by rw [hpn]; exact h.received
      flying := by rw [hpn]; exact h.flying
      joined := by rw [hpn]; exact h.joined
      client := by rw [hpn]; exact h.client
      bridge := ?_ }
  · rw [update_of_ne hkp]
    simpa only [actionsOf, filterMap_cons, filterMap_nil, sentBy, if_true] using hm
  · intro j hj
    dsimp only
    rcases eq_or_ne j (k + 1) with rfl | hne
    · rw [update_self, update_self]
      exact ⟨e, hc⟩
    · rw [update_of_ne hne, update_of_ne hne]
      exact h.bridge j hj

end

lemma Carries.congr {i : UInt32} {waits waits' : Prop} {m' j' : ℕ} {e : CircuitEntry}
    (h : Carries keys base m bc i waits k j e) (hs : seqAt base m k j = seqAt base m' k j')
    (hw : waits' ↔ waits) : Carries keys base m' bc i waits' k j' e :=
  ⟨h.entry, h.prevKeys, h.counter.trans hs, h.bound, fun hw' => h.waiting (hw.1 hw'),
    fun hw' => h.running fun hwt => hw' (hw.2 hwt)⟩

lemma seqAt_of_pos (hk : k ≠ 0) (m : ℕ) : seqAt base m k i = base k + i := by
  unfold seqAt
  rw [if_neg hk]
  rfl

lemma Flow.passed_zero (h : Flow A id n keys base s passed) (hs : s.stage = .extending)
    (hk : k ≤ n) : passed k = 0 := by
  have hle := h.passed_le hk
  rw [(h.silent hs).1] at hle
  exact le_zero.1 hle

lemma payloads_eq (hm : msg.length ≤ 65535) :
    ((flightCells msg).filterMap fun sub => sub.encode.toOption) = (flightCells msg).map bytes := by
  obtain ⟨-, -, -, hb⟩ := flightCells_spec hm
  rw [← filterMap_eq_map]
  refine filterMap_congr fun sub hs => ?_
  rw [encode_eq (hb sub hs)]
  rfl

lemma filterMap_sentBy_mapIdx (i : UInt32) (subs : List RelaySubCell)
    (cell : ℕ → RelaySubCell → Cell) :
    (subs.mapIdx fun j sub => .sendToPrev i (cell j sub)).filterMap (sentBy i) =
      subs.mapIdx cell := by
  rw [mapIdx_eq_zipIdx_map, mapIdx_eq_zipIdx_map, filterMap_map, ← filterMap_eq_map]
  refine filterMap_congr fun p _ => ?_
  simp [sentBy]

lemma mapIdx_flight (subs : List RelaySubCell) : subs.mapIdx (fun j sub => (⟨id 1, cmdRelay,
        sealed A (keys 1).reverse sub.bytes dirHopToClient (base 1 + j)⟩ : Cell)) =
      (range' 0 subs.length).map (cellAt A id keys base subs.length (subs.map bytes) 1) := by
  refine ext_getElem (by simp) fun j hj hj' => ?_
  rw [length_mapIdx] at hj
  have hg : (subs.map bytes).getD j [] = subs[j].bytes := by
    rw [getD_eq_getElem?_getD, getElem?_map, getElem?_eq_getElem]
    rfl
  rw [getElem_mapIdx, getElem_map, getElem_range', zero_add, one_mul, cellAt,
    stackAt_succ (fun h1 => absurd h1 one_ne_zero), stackAt_flight hj, seqAt_of_pos one_ne_zero, hg]

section

variable (h : Flow A id n keys base s passed)

include h

/-- The flight is the first thing on the line. -/
lemma Flow.line_extended (hst : s.stage = .extending) (hn : 1 < n) (subs : List RelaySubCell) :
    Holds n (cellAt A id keys base subs.length (subs.map bytes))
      (update s.queue 1 (s.queue 1 ++ subs.mapIdx fun j sub => ⟨id 1, cmdRelay,
        sealed A (keys 1).reverse sub.bytes dirHopToClient (base 1 + j)⟩))
      fun j => if j ≤ 1 then passed 1 + subs.length else passed j := by
  have ho := h.passed_zero hst (le_of_lt hn)
  have hln : Holds n (cellAt A id keys base subs.length (subs.map bytes)) s.queue passed := by
    refine h.line.congr fun k hk i hi => ?_
    rw [h.passed_zero hst (le_of_lt hk)] at hi
    exact absurd hi (not_lt_zero i)
  have hsm : ∀ j < 1, passed j = passed 1 := by
    intro j hj
    rw [h.passed_zero hst (by omega), ho]
  have hen := hln.enter hn hsm subs.length
  rwa [ho, ← mapIdx_flight, ← ho] at hen

/-- The client has no layer of the new hop yet, so it counts as before. -/
lemma Flow.client_extended (hst : s.stage = .extending) (m : ℕ) :
    s.client.hops.map back = path (backAt keys base m (passed n)) 1 (n - 1) := by
  have hl : s.lowest = 1 := if_neg (by rw [hst]; decide)
  have hc := h.client
  rw [hl] at hc
  rw [hc]
  refine path_congr fun k hk _ => ?_
  have hk0 : k ≠ 0 := by omega
  rw [backAt, backAt, seqAt_of_pos hk0, seqAt_of_pos hk0]

/-- The other bridges have sealed nothing, and go on with the counters that they have. -/
lemma Flow.bridge_extended (hst : s.stage = .extending) (hn : 1 < n) (hk : k < n) (hne : k ≠ 1)
    {waits : Prop} (hw : waits → k = 1) (m : ℕ) :
    ∃ e, Carries keys base m (s.bridge k) (id k) waits k
      (if k ≤ 1 then passed 1 + m else passed k) e := by
  obtain ⟨e, he⟩ := h.bridge k hk
  refine ⟨e, he.congr ?_ ⟨fun hw' => absurd (hw hw') hne, fun hw' => absurd hw'.1 hne⟩⟩
  rcases Nat.eq_zero_or_pos k with rfl | hps
  · rw [if_pos (zero_le 1), h.passed_zero hst (le_of_lt hn), h.passed_zero hst (zero_le n)]
    simp [seqAt]
  · have hk0 : k ≠ 0 := ne_of_gt hps
    rw [if_neg (by omega), seqAt_of_pos hk0, seqAt_of_pos hk0]

theorem Flow.extended (hA : A.Lawful) (hf : Follows id n s (.extended msg now))
    (hok : Undisturbed A id s (.extended msg now)) :
    Flow A id n keys base (s.step A id n (.extended msg now))
      (fun j => if j ≤ 1 then passed 1 + (flightCells msg).length else passed j) := by
  obtain ⟨hst, hm⟩ := hf
  obtain ⟨hn, hbs⟩ := h.early (by rw [hst]; decide)
  obtain ⟨-, -, -, hb⟩ := flightCells_spec hm
  obtain ⟨e, he⟩ := h.bridge 1 hn
  obtain ⟨hsa, hv⟩ := he.waiting ⟨rfl, hst⟩
  have hr : e.reverseSeq + (flightCells msg).length < 2 ^ 64 := hok e he.entry
  have hcl : (s.bridge 1).call A (.extendComplete (id 1) msg now) = _ :=
    recordExtendComplete_eq now hA (h.ids 1 hn) he.entry hsa hv he.prevKeys hm hr
  have ho := h.passed_zero hst (le_of_lt hn)
  have hed := h.passed_zero hst le_rfl
  have hsq : e.reverseSeq = base 1 := by rw [he.counter, seqAt_of_pos one_ne_zero, ho, add_zero]
  have hlw : ¬ n ≤ 1 := not_le.2 hn
  change Flow A id n keys base
    { s.callAt A id 1 (.extendComplete (id 1) msg now) with
      replies := (flightCells msg).filterMap fun sub => sub.encode.toOption
      flight := ((flightCells msg).filterMap fun sub => sub.encode.toOption).length
      stage := .flying } _
  rw [callAt_eq, hcl, payloads_eq hm, length_map]
  refine
    { h with
      links := h.links_update fun _ _ hot => hot
      line := ?_
      entered := ?_
      flown := ?_
      received := ?_
      short := ?_
      early := fun _ => ⟨hn, hbs⟩
      silent := fun hs => by cases hs
      flying := fun _ => ?_
      joined := fun hs => by cases hs
      client := ?_
      bridge := ?_ }
  · dsimp only [actionsOf]
    rw [filterMap_sentBy_mapIdx, hsq]
    exact h.line_extended hst hn (flightCells msg)
  · rw [if_pos (by omega), ho, zero_add, length_map]
  · rw [if_pos le_rfl, ho, zero_add]
  · rw [if_neg hlw, hed, take_zero, h.received, hed, take_zero]
  · intro p hp
    obtain ⟨sub, hsb, rfl⟩ := mem_map.1 hp
    rw [sub.length_bytes]
    exact Nat.add_le_add_left (hb sub hsb) 3
  · rw [if_neg hlw, hed]
    exact zero_le _
  · rw [if_neg hlw]
    exact h.client_extended hst _
  · intro k hk
    dsimp only
    rcases eq_or_ne k 1 with rfl | hne
    · rw [update_self, if_pos le_rfl, ho, zero_add]
      refine ⟨_, AList.lookup_insert _, he.prevKeys, ?_, hr, fun hw => ?_, fun _ => rfl⟩
      · rw [seqAt_of_pos one_ne_zero, ← hsq]
      · cases hw.2
    · rw [update_of_ne hne]
      exact h.bridge_extended hst hn hk hne And.left _

lemma Flow.length_received : s.received.length = passed n := by
  rw [h.received, length_take_of_le (h.passed_le le_rfl)]

lemma Flow.length_hops : s.client.hops.length = n - s.lowest := by
  simpa only [length_map, length_path] using congrArg length h.client

lemma Flow.lowest_le (hp : 0 < n) : s.lowest < n := by
  unfold lowest
  split_ifs with hs
  · exact hp
  · exact (h.early hs).1

lemma Flow.flight_le (hl : s.lowest = 0) : s.flight ≤ passed n := by
  refine h.joined ?_
  by_contra hs
  unfold lowest at hl
  rw [if_neg hs] at hl
  cases hl

lemma Flow.not_spent (hps : 0 < n) (hm : passed n < passed (n - 1)) :
    ¬ Spent CircuitHop.h2cSeq s.client.hops := by
  rintro ⟨hop, hmm, hs⟩
  have hb : back hop ∈ s.client.hops.map back := mem_map_of_mem hmm
  rw [h.client] at hb
  obtain ⟨k, ⟨hle, hlt⟩, heq⟩ := mem_path.1 hb
  have hk : k < n := by omega
  obtain ⟨e, he⟩ := h.bridge k hk
  have hp : passed n < passed k :=
    lt_of_lt_of_le hm (h.line.antitone (by omega) (by omega))
  have hsq : seqAt base s.flight k (passed k) = seqAt base s.flight k (passed n) + _ :=
    seqAt_add (le_of_lt hp) fun h0 => h.flight_le (by omega)
  have hc : seqAt base s.flight k (passed n) = hop.h2cSeq := congrArg Prod.snd heq
  have hbn := he.bound
  rw [he.counter, hsq, hc] at hbn
  unfold checkedSucc at hs
  rw [if_pos (by omega)] at hs
  cases hs

lemma Flow.opens (hA : A.Lawful) (hp : 0 < n) (hn : n ≤ 3)
    (hf : Follows id n s .receive) (hq : s.queue (n - 1) = cell :: rest) :
    ∃ payload, s.replies[passed n]? = some payload ∧
      s.client.relayOpen A cell.body = (.ok payload,
        { s.client with
          hops := s.client.hops.map fun hop => { hop with h2cSeq := hop.h2cSeq + 1 } }) := by
  have hls : n - 1 + 1 = n := Nat.sub_add_cancel hp
  have hl := h.lowest_le hp
  obtain ⟨hm, hc, -⟩ := h.line.head (Nat.sub_lt hp one_pos) hq
  rw [hls] at hm hc
  have hlt : passed n < s.replies.length :=
    lt_of_lt_of_le hm (h.passed_le (sub_le n 1))
  have hst : stackAt A keys base s.flight s.replies s.lowest (passed n) =
      s.replies[passed n] := by
    have hg : s.replies.getD (passed n) [] = s.replies[passed n] := by
      rw [getD_eq_getElem?_getD, getElem?_eq_getElem, Option.getD_some]
    rw [← hg]
    unfold lowest
    split_ifs with hs
    · rfl
    -- The client that has not joined the exit reads the flight.
    have hfl := hf.resolve_left hs
    rw [h.length_received] at hfl
    exact stackAt_flight hfl
  have ho := openHops_stackAt hA h.short h.flight_le (by omega) h.client
  have hne : s.client.hops ≠ [] := by
    intro hnl
    have hln := h.length_hops
    rw [hnl, length_nil] at hln
    omega
  refine ⟨_, getElem?_eq_getElem hlt, ?_⟩
  unfold Circuit.relayOpen
  rw [Nat.add_sub_cancel' (Nat.le_of_lt hl)] at ho
  rw [h.live, h.epoch, hc, cellAt, hls, ho, hst, advanceAll_eq _ _ _ (h.not_spent hp hm)]
  simp [hne, h.live, h.epoch]

lemma Flow.receive (hA : A.Lawful) (hps : 0 < n) (hn : n ≤ 3) (hf : Follows id n s .receive) :
    ∃ passed', Flow A id n keys base (s.receive A n) passed' := by
  unfold ReverseChain.receive
  split
  · exact ⟨passed, h⟩
  rename_i cell rest hq
  obtain ⟨payload, hp, ho⟩ := h.opens hA hps hn hf hq
  have hls : n - 1 + 1 = n := Nat.sub_add_cancel hps
  have hl := h.line.leave hls hq
  rw [hls] at hl
  refine ⟨update passed n (passed n + 1), ?_⟩
  have hn0 : (0 : ℕ) ≠ n := Nat.ne_of_lt hps
  rw [ho]
  refine
    { h with
      line := hl
      entered := ?_
      flown := ?_
      received := ?_
      flying := ?_
      joined := ?_
      client := ?_
      bridge := ?_ }
  · rw [update_of_ne hn0]
    exact h.entered
  · rcases eq_or_ne 1 n with rfl | hne
    · exact le_succ_of_le h.flown
    · rw [update_of_ne hne]
      exact h.flown
  · rw [update_self, h.received, take_add_one, hp]
    rfl
  · intro hs
    have hfl := hf.resolve_left (by rw [show s.stage = .flying from hs]; decide)
    rw [h.length_received] at hfl
    rw [update_self]
    exact hfl
  · intro hs
    rw [update_self]
    exact le_succ_of_le (h.joined hs)
  · have hb : back ∘ (fun hop => { hop with h2cSeq := hop.h2cSeq + 1 }) =
        (fun b => (b.1, b.2 + 1)) ∘ back := rfl
    rw [map_map, hb, ← map_map, h.client, map_path, update_self]
    refine path_congr fun k hk _ => Prod.ext rfl ?_
    have hz : k = 0 → s.flight ≤ passed n := by
      rintro rfl
      exact h.flight_le (le_zero.1 hk)
    exact (Nat.add_sub_cancel_left (passed n) 1 ▸ seqAt_add (Nat.le_succ (passed n)) hz).symm
  · intro k hk
    rw [update_of_ne (Nat.ne_of_lt hk)]
    exact h.bridge k hk

lemma Flow.extend (hn : n ≤ 3) (keys' : HopKeys) (hf : Follows id n s (.extend keys')) :
    Flow A id n keys base (s.step A id n (.extend keys')) passed := by
  obtain ⟨hst, ha, hky⟩ := hf
  obtain ⟨hn1, hb⟩ := h.early (by rw [hst]; decide)
  obtain ⟨e, he⟩ := h.bridge 0 (by omega)
  obtain rfl : keys' = keys 0 := Option.some.inj ((hky e he.entry).symm.trans he.prevKeys)
  have hl : s.lowest = 1 := if_neg (by rw [hst]; decide)
  have hc := h.client
  rw [hl] at hc
  have hln := h.length_hops
  have hen := h.length_received.symm.trans ha
  have hm : ¬ maxCircuitHops ≤ s.client.hops.length := by
    unfold maxCircuitHops
    omega
  have hey : (s.client.extend (keys 0)).2 = { s.client with
      hops := s.client.hops ++ [⟨(keys 0).forward, (keys 0).reverse, 0, 0⟩] } := by
    unfold Circuit.extend
    rw [if_neg (by simp [h.live]), if_neg hm]
  change Flow A id n keys base { s with client := (s.client.extend (keys 0)).2, stage := .joined } _
  rw [hey]
  refine
    { h with
      early := fun hs => absurd rfl hs
      silent := fun hs => by cases hs
      flying := fun hs => by cases hs
      joined := fun _ => hen.ge
      client := ?_
      bridge := ?_ }
  · have hsp : n = n - 1 + 1 := by omega
    have het : backAt keys base s.flight s.flight 0 = ((keys 0).reverse, 0) := by
      simp [backAt, seqAt, hb]
    change _ = path _ 0 n
    rw [hsp, path_succ, ← hsp, map_append, hc, hen, het]
    rfl
  · intro k hk
    obtain ⟨e', he'⟩ := h.bridge k hk
    refine ⟨e', he'.congr rfl ⟨fun hw => ?_, fun hw => ?_⟩⟩
    · cases hw.2
    · exact absurd (hst.symm.trans hw.2) (by decide)

end

lemma Flow.step (hA : A.Lawful) (hp : 0 < n) (hn : n ≤ 3) (e : ReverseEvent)
    (h : ∃ passed, Flow A id n keys base s passed) (he : Follows id n s e ∧ Undisturbed A id s e) :
    ∃ passed, Flow A id n keys base (s.step A id n e) passed := by
  obtain ⟨passed, h⟩ := h
  obtain ⟨hf, hok⟩ := he
  cases e with
  | forward k cell now => exact ⟨passed, h.forward hf hok⟩
  | reply payload now => exact ⟨_, h.reply hA hp hn payload hf hok⟩
  | relay k now => exact h.relay hA hn hf hok
  | extended msg now => exact ⟨_, h.extended hA hf hok⟩
  | receive => exact h.receive hA hp hn hf
  | extend keys' => exact ⟨passed, h.extend hn keys' hf⟩

lemma Flow.succeeds (hA : A.Lawful) (h : Flow A id n keys base s passed) (hps : 0 < n)
    (hn : n ≤ 3) (e : ReverseEvent) (hf : Follows id n s e) (hok : Undisturbed A id s e) :
    Succeeds A id n s e := by
  have hcl : maxCellPayload = 1017 := rfl
  cases e with
  | forward | extend => trivial
  | reply payload now =>
    have hwt : ¬ s.Waits 0 := fun hw => absurd hw.1 (by decide)
    have hl : payload.length ≤ 969 + 16 * 0 := le_trans hf.2 (by decide)
    obtain ⟨e, -, hsl, -⟩ := h.seals hA hn hps hwt hok hl now
    refine ⟨_, ?_, congrArg Prod.fst hsl⟩
    rw [length_sealed hA (by omega)]
    omega
  | relay k now =>
    intro cell rest hq
    obtain ⟨e, bc', -, -, hnx⟩ := h.relays hA hn hf hok hq
    refine ⟨_, ?_, congrArg Prod.fst hnx⟩
    have hk : k + 1 < n := hf.1
    have hle : (stackAt A keys base s.flight s.replies (k + 1 + 1) (passed (k + 1))).length ≤
        969 + 16 * (k + 1 + 1) := length_stackAt hA h.short (by omega)
    exact le_trans hle (by omega)
  | extended msg now =>
    obtain ⟨hs, hm⟩ := hf
    obtain ⟨hn1, -⟩ := h.early (by rw [hs]; decide)
    obtain ⟨e, he⟩ := h.bridge 1 hn1
    obtain ⟨hst, hv⟩ := he.waiting ⟨rfl, hs⟩
    have hc := recordExtendComplete_eq now hA (h.ids 1 hn1) he.entry hst hv
      he.prevKeys hm (hok e he.entry)
    exact ⟨_, congrArg Prod.fst hc, length_mapIdx⟩
  | receive =>
    intro cell rest hq
    obtain ⟨payload, hp, ho⟩ := h.opens hA hps hn hf hq
    refine ⟨payload, congrArg Prod.fst ho, ?_⟩
    rw [h.length_received]
    exact hp

/-- A bridge is ahead of the client by the cells between them. -/
theorem Flow.lockstep (h : Flow A id n keys base s passed) (hp : 0 < n) (hk : k < n) :
    ∃ e, (s.bridge k).circuits.lookup (id k) = some e ∧
      ∀ hop, s.client.hops[n - 1 - k]? = some hop →
        e.reverseSeq = hop.h2cSeq + ∑ j ∈ Finset.Ico k n, (s.queue j).length := by
  obtain ⟨e, he⟩ := h.bridge k hk
  refine ⟨e, he.entry, fun hop hh => ?_⟩
  have hl := h.length_hops
  have hi : n - 1 - k < s.client.hops.length := (List.getElem?_eq_some_iff.1 hh).1
  have hlt : k - s.lowest < n - s.lowest := by omega
  have hg := getElem?_path (backAt keys base s.flight (passed n)) s.lowest hlt
  have hp' : n - s.lowest - 1 - (k - s.lowest) = n - 1 - k := by omega
  rw [← h.client, hp', getElem?_map, hh, Option.map_some, Nat.add_sub_cancel' (by omega)] at hg
  have hc : hop.h2cSeq = seqAt base s.flight k (passed n) :=
    congrArg Prod.snd (Option.some.inj hg)
  rw [he.counter, h.line.sum (le_of_lt hk), hc]
  exact seqAt_add (h.line.antitone (le_of_lt hk) le_rfl) fun h0 => h.flight_le (by omega)

lemma Ready.flow (h : Ready id n s) (hp : 0 < n) :
    ∃ keys base, ∃ passed, Flow A id n keys base s passed := by
  have hh := h.hops
  obtain ⟨e₀, keys₀, -⟩ := hh 0 hp
  have he : Nonempty CircuitEntry := ⟨e₀⟩
  have hky : Nonempty HopKeys := ⟨keys₀⟩
  choose! e keys hr using hh
  refine ⟨keys, fun k => (e k).reverseSeq, fun _ => 0, ?_⟩
  have hlw : s.client.hops.length = n - s.lowest ∧ s.lowest ≤ n := by
    unfold lowest
    rcases h.stage with ⟨hs, hl⟩ | ⟨hs, hn, hl⟩
    · rw [if_pos hs]
      exact ⟨hl, zero_le n⟩
    · rw [if_neg (by rw [hs]; decide)]
      omega
  refine
    { live := h.live
      epoch := h.epoch
      ids := h.ids
      links := h.links
      line := fun k _ => ⟨le_refl 0, h.quiet k⟩
      entered := by rw [h.replies]; rfl
      flown := by rw [h.flight]
      received := by rw [h.received, h.replies]; rfl
      short := by simp [h.replies]
      early := fun hs => ?_
      silent := fun _ => ⟨h.replies, h.flight⟩
      flying := fun _ => zero_le _
      joined := fun _ => h.flight.le
      client := eq_path ((length_map _).trans hlw.1) fun k hk x hx => ?_
      bridge := fun k hk => ?_ }
  · obtain ⟨hs', hn, -⟩ := h.stage.resolve_left fun hj => hs hj.1
    exact ⟨hn, (hr 0 (by omega)).fresh rfl hs'⟩
  · have hkn : s.lowest + k < n := by omega
    have hi : n - s.lowest - 1 - k = n - 1 - (s.lowest + k) := by omega
    rw [hi, getElem?_map, Option.map_eq_some_iff] at hx
    obtain ⟨hop, hhp, rfl⟩ := hx
    obtain ⟨hrv, hsq⟩ := (hr _ hkn).hop hop hhp
    simp [back, backAt, seqAt, hrv, hsq]
  · have hk' := hr k hk
    have hst := hk'.state
    refine ⟨e k, hk'.entry, hk'.prevKeys, by simp [seqAt], hk'.counter, fun hw => ?_, fun hw => ?_⟩
    · rwa [if_pos (show k = 1 ∧ s.stage = .extending from hw)] at hst
    · rwa [if_neg (show ¬ (k = 1 ∧ s.stage = .extending) from hw)] at hst

end Line

/-- Answers are sealed hop by hop and fit, and the client opens them in order. -/
theorem reverse_lockstep {A : Aead} (hA : A.Lawful) (id : ℕ → UInt32) (n : ℕ) (hpos : 0 < n)
    (hn : n ≤ 3) (start : ReverseChain) (hready : Ready id n start) (events : List ReverseEvent)
    (h : Along (step A id n) (fun s e => Follows id n s e ∧ Undisturbed A id s e) start events) :
    Along (step A id n) (Succeeds A id n) start events ∧
    (run (step A id n) start events).received <+: (run (step A id n) start events).replies ∧
    ∀ k < n, ∃ e, ((run (step A id n) start events).bridge k).circuits.lookup (id k) = some e ∧
      ∀ hop, (run (step A id n) start events).client.hops[n - 1 - k]? = some hop →
        e.reverseSeq = hop.h2cSeq +
          ∑ j ∈ Finset.Ico k n, ((run (step A id n) start events).queue j).length := by
  obtain ⟨keys, base, hfl⟩ := hready.flow hpos
  refine ⟨along_of_inv (fun _ e => Flow.step hA hpos hn e) ?_ start events hfl h, ?_⟩
  · rintro s e ⟨passed, hs⟩ ⟨hf, hok⟩
    exact hs.succeeds hA hpos hn e hf hok
  · obtain ⟨passed, hr⟩ := inv_run (fun _ e => Flow.step hA hpos hn e) start events hfl h
    exact ⟨hr.received ▸ List.take_prefix _ _, fun k hk => hr.lockstep hpos hk⟩

def twoBack (stage : Stage) : ReverseChain where
  client := { twoBridges.client with
    hops := twoBridges.client.hops.take (if stage = .extending then 1 else 2) }
  bridge k :=
    if k = 0 then twoBridges.bridge 1
    else
      { (twoBridges.bridge 0).setEntry 1
          { openEntry (some 2) with
            state := if stage = .extending then .extending else .open
            extendViaRelay := true } with
        outToIn := AList.singleton 2 1 }
  queue _ := []
  received := []
  replies := []
  flight := 0
  stage := stage

def twoOne (k : ℕ) : UInt32 := if k = 0 then 2 else 1

lemma twoBack_ready {stage : Stage} (h : stage ≠ .flying) : Ready twoOne 2 (twoBack stage) := by
  refine ⟨rfl, rfl, fun _ => rfl, rfl, rfl, rfl, ?_, fun k hk => ?_, fun k hk => ?_, fun k hk => ?_⟩
  · cases stage with
    | extending => exact .inr ⟨rfl, by decide, rfl⟩
    | flying => exact absurd rfl h
    | joined => exact .inl ⟨rfl, rfl⟩
  · unfold twoOne
    split_ifs <;> decide
  · obtain rfl : k = 0 := by omega
    rfl
  rcases Nat.eq_zero_or_pos k with rfl | hp
  · refine ⟨_, HopKeys.blank, rfl, rfl, by decide, fun hop hh => ?_, rfl, fun _ _ => rfl⟩
    cases stage with
    | extending => cases hh
    | flying => exact absurd rfl h
    | joined =>
      obtain rfl := Option.some.inj hh
      exact ⟨rfl, rfl⟩
  · obtain rfl : k = 1 := by omega
    refine ⟨_, HopKeys.blank, rfl, rfl, Nat.two_pow_pos 64, fun hop hh => ?_, ?_,
      fun h1 => absurd h1 one_ne_zero⟩
    · cases stage with
      | flying => exact absurd rfl h
      | extending | joined =>
        obtain rfl := Option.some.inj hh
        exact ⟨rfl, rfl⟩
    · cases stage with
      | extending => exact ⟨rfl, rfl⟩
      | flying | joined => rfl

/-- A `DATA` cell makes the bridge before the exit tear the circuit down. -/
theorem reply_refused_after_data : destroyTagged.Lawful ∧ Ready twoOne 2 (twoBack .joined) ∧
    isStream dataPayload = true ∧ ∃ body, ((twoBack .joined).client.relaySeal destroyTagged
        dataPayload).1 = .ok body ∧
      Along (step destroyTagged twoOne 2) (Follows twoOne 2) (twoBack .joined)
        [.forward 1 ⟨1, cmdRelay, body⟩ 0, .reply dataPayload 0, .relay 0 0] ∧
      ∃ cell rest, (run (step destroyTagged twoOne 2) (twoBack .joined)
          [.forward 1 ⟨1, cmdRelay, body⟩ 0, .reply dataPayload 0]).queue 0 = cell :: rest ∧
        (((run (step destroyTagged twoOne 2) (twoBack .joined)
          [.forward 1 ⟨1, cmdRelay, body⟩ 0, .reply dataPayload 0]).bridge 1
          ).processInboundFromNext destroyTagged cell 0).1 =
            .error (.badState 1 .destroyed cmdRelay) := by
  refine ⟨destroyTagged_lawful, twoBack_ready (by decide), by decide +kernel, _, rfl,
    by decide +kernel, _, [], rfl, ?_⟩
  decide +kernel

def joinThenReply : List ReverseEvent :=
  [.extended [7] 0, .receive, .extend HopKeys.blank, .reply dataPayload 0,
    .forward 1 ⟨1, cmdRelay, dataPayload ++ List.replicate 32 0⟩ 0, .relay 0 0,
    .receive]

theorem reverse_lockstep_join :
    (run (step Aead.plain twoOne 2) (twoBack .extending) joinThenReply).received =
      [[cmdExtended, 0, 3, 0, 1, 7], dataPayload] ∧
    Along (step Aead.plain twoOne 2) (Succeeds Aead.plain twoOne 2) (twoBack .extending)
      joinThenReply := by
  refine ⟨by decide +kernel, (reverse_lockstep Aead.plain_lawful twoOne 2 (by decide) (by decide)
    (twoBack .extending) (twoBack_ready (by decide)) joinThenReply ?_).1⟩
  decide +kernel

end ReverseChain

end Mirage.Circuits
