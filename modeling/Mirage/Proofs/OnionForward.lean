import Mirage.Circuit.Chain
import Mirage.Lib.Pipeline
import Mirage.Lib.Runs

/-!
# The way to the exit

The cells on the links are a line of queues: in front of bridge `k`, payload `i` stands under the
layers of the hops from `k` on.
-/

namespace Mirage.Circuits

open Words Runs Pipeline Function List Option Nat CircuitHop

/-!
## Layers

What a lawful cipher gives of one onion layer and of a path of them: a layer adds 16 bytes and
comes off again under the same direction and counter, and the client's counters move on together
or, when one is spent, never again all of them.
-/

variable {A : Aead}

section Layer

variable (A) (layer : OnionLayer) (payload : Bytes) (direction : UInt8) (seq : ℕ)

def sealed : Bytes :=
  ((A.encrypt layer.key (onionNonce layer.iv direction 0 seq) (onionAad direction 0 seq)
    payload)).getD []

variable {A} {layer} {payload} {direction} {seq}

lemma Aead.Lawful.encrypt_sealed (hA : A.Lawful) (h : payload.length ≤ maxCellPayload) :
    A.encrypt layer.key (onionNonce layer.iv direction 0 seq) (onionAad direction 0 seq) payload =
      some (sealed A layer payload direction seq) ∧
    (sealed A layer payload direction seq).length = payload.length + 16 := by
  obtain ⟨ct, hct, hl⟩ := hA.encrypt_some layer.key (onionNonce layer.iv direction 0 seq)
    (onionAad direction 0 seq) payload h
  unfold sealed
  rw [hct]
  exact ⟨rfl, hl⟩

lemma onionSeal_eq (hA : A.Lawful) (h : payload.length ≤ maxCellPayload) :
    onionSeal A [layer] payload direction 0 seq = .ok (sealed A layer payload direction seq) := by
  unfold onionSeal
  rw [if_neg (by simp), if_neg (Nat.not_lt_zero _), foldrM_cons, foldrM_nil]
  change sealLayer A direction 0 seq layer payload = _
  unfold sealLayer
  rw [(hA.encrypt_sealed h).1]

lemma onionOpen_sealed (hA : A.Lawful) (h : payload.length ≤ maxCellPayload) :
    onionOpen A [layer] (sealed A layer payload direction seq) direction 0 seq = .ok payload := by
  unfold onionOpen
  rw [if_neg (by simp), if_neg (Nat.not_lt_zero _), foldlM_cons]
  unfold openLayer
  rw [hA.decrypt_encrypt (hA.encrypt_sealed h).1]
  rfl

lemma length_sealed (hA : A.Lawful) (h : payload.length ≤ maxCellPayload) :
    (sealed A layer payload direction seq).length = payload.length + 16 :=
  (hA.encrypt_sealed h).2

end Layer

def wrapped (A : Aead) : List CircuitHop → Bytes → Bytes
  | [], payload => payload
  | h :: hs, payload => sealed A h.forward (wrapped A hs payload) dirClientToHop h.c2hSeq

lemma length_wrapped (hA : A.Lawful) : ∀ hops payload,
    payload.length + 16 * hops.length ≤ maxCellPayload →
    (wrapped A hops payload).length = payload.length + 16 * hops.length
  | [], payload, _ => by simp [wrapped]
  | h :: hs, payload, hf => by
    rw [length_cons] at hf ⊢
    have ih := length_wrapped hA hs payload (by omega)
    rw [wrapped, length_sealed hA (by omega), ih]
    omega

lemma sealHops_eq (hA : A.Lawful) : ∀ hops payload,
    payload.length + 16 * hops.length ≤ maxCellPayload →
    Circuit.sealHops A 0 hops payload = .ok (wrapped A hops payload)
  | [], _, _ => rfl
  | h :: hs, payload, hf => by
    rw [length_cons] at hf
    have ih := sealHops_eq hA hs payload (by omega)
    have hl := length_wrapped hA hs payload (by omega)
    rw [Circuit.sealHops, ih]
    exact onionSeal_eq hA (by omega)

section Advance

variable (get : CircuitHop → ℕ) (set : CircuitHop → ℕ → CircuitHop)

/-- One of the counters can no longer move on. -/
def Spent (hops : List CircuitHop) : Prop :=
  ∃ h ∈ hops, checkedSucc (get h) = none

lemma advanceAll_eq : ∀ hops, ¬ Spent get hops →
    advanceAll get set hops = (true, hops.map fun h => set h (get h + 1))
  | [], _ => rfl
  | h :: hs, hf => by
    have hh : checkedSucc (get h) ≠ none := fun hn => hf ⟨h, mem_cons_self, hn⟩
    have hr : ¬ Spent get hs := fun ⟨g, hg, hn⟩ => hf ⟨g, mem_cons_of_mem h hg, hn⟩
    obtain ⟨m, hm⟩ := Option.ne_none_iff_exists'.1 hh
    obtain ⟨rfl, -⟩ := checkedSucc_eq_some.1 hm
    rw [advanceAll, hm]
    simp only [advanceAll_eq hs hr, map_cons]

lemma advanceAll_spent : ∀ hops, Spent get hops →
    (advanceAll get set hops).1 = false ∧ Spent get (advanceAll get set hops).2
  | [], hsp => by obtain ⟨h, hm, -⟩ := hsp; cases hm
  | h :: hs, hsp => by
    rw [advanceAll]
    cases hh : checkedSucc (get h) with
    | none => exact ⟨rfl, h, mem_cons_self, hh⟩
    | some m =>
      obtain ⟨g, hg, hn⟩ := hsp
      rcases mem_cons.1 hg with rfl | hg
      · rw [hn] at hh
        cases hh
      · obtain ⟨hf, g', hg', hn'⟩ := advanceAll_spent hs ⟨g, hg, hn⟩
        exact ⟨hf, g', mem_cons_of_mem _ hg', hn'⟩

lemma length_advanceAll : ∀ hops,
    (advanceAll get set hops).2.length = hops.length
  | [] => rfl
  | h :: hs => by
    rw [advanceAll]
    cases checkedSucc (get h) with
    | none => rfl
    | some m => exact congrArg Nat.succ (length_advanceAll hs)

end Advance

variable {A : Aead} {bc : BridgeCircuitState} {now : Instant} {e : CircuitEntry} {k i : ℕ}
  {hop : CircuitHop} {payload : Bytes} {cell : Cell} {rest : List Cell}

namespace BridgeCircuitState

variable {id : UInt32} {body peeled : Bytes}

lemma peelRelay_eq {keys : HopKeys}
    (he : bc.circuits.lookup id = some e) (hs : e.state = .open)
    (hk : e.prevKeys = some keys)
    (ho : onionOpen A [keys.forward] body dirClientToHop 0 e.forwardSeq = .ok peeled)
    (hr : e.forwardSeq + 1 < 2 ^ 64) :
    bc.peelRelay A id body now =
      .ok ({ e with forwardSeq := e.forwardSeq + 1, lastActivity := now }, peeled) := by
  have hsc : checkedSucc e.forwardSeq = some (e.forwardSeq + 1) :=
    checkedSucc_eq_some.2 ⟨rfl, hr⟩
  unfold peelRelay
  simp only [he, hs, hk, ho, hsc, ne_eq, not_true_eq_false, if_false]

lemma handleRelayFromPrev_eq
    (hpl : bc.peelRelay A id body now = .ok (e, peeled)) (hc : isControl peeled = false) :
    bc.handleRelayFromPrev A id body now = (bc.setEntry id e).forwardOrExit id e peeled := by
  unfold handleRelayFromPrev
  unfold isControl parsesAs at hc
  rw [hpl]
  dsimp only
  cases hdc : RelaySubCell.decode peeled with
  | error err => rfl
  | ok sub =>
    rw [hdc] at hc
    simp only [controlCommand, Bool.or_eq_false_iff, decide_eq_false_iff_not] at hc
    obtain ⟨⟨⟨⟨he, hcn⟩, hf⟩, hd⟩, hp⟩ := hc
    dsimp only
    rw [if_neg he, if_neg hcn, if_neg hf, if_neg hd, if_neg hp]

lemma processInboundFromPrev_relay (id : UInt32) (body : Bytes) :
    bc.processInboundFromPrev A ⟨id, cmdRelay, body⟩ now =
      bc.handleRelayFromPrev A id body now := by
  rfl

end BridgeCircuitState

lemma isControl_of_isStream {bytes : Bytes} (h : isStream bytes = true) :
    isControl bytes = false := by
  unfold isStream parsesAs at h
  unfold isControl parsesAs
  split at h
  · simpa using h
  · cases h

namespace ForwardChain

open BridgeCircuitState

def advanced (n : ℕ) (hops : List CircuitHop) : List CircuitHop :=
  hops.map fun h => { h with c2hSeq := h.c2hSeq + n }

@[simp]
lemma length_advanced (n : ℕ) (hops : List CircuitHop) :
    (advanced n hops).length = hops.length := by
  simp [advanced]

lemma getElem?_advanced {n : ℕ} {hops : List CircuitHop} (h : hops[k]? = some hop) :
    (advanced n hops)[k]? = some { hop with c2hSeq := hop.c2hSeq + n } := by
  simp [advanced, h]

lemma relaySeal_eq (hA : A.Lawful) {c : Circuit} (hl : c.destroyed = false)
    (he : c.epoch = 0) (hne : c.hops ≠ [])
    (hf : payload.length + 16 * c.hops.length ≤ maxCellPayload)
    (hr : ¬ Spent c2hSeq c.hops) :
    c.relaySeal A payload =
      (.ok (wrapped A c.hops payload), { c with hops := advanced 1 c.hops }) := by
  unfold Circuit.relaySeal
  rw [hl, he, sealHops_eq hA _ _ hf, advanceAll_eq _ _ _ hr]
  simp [hne, advanced]

lemma relaySeal_spent {c : Circuit} (h : Spent c2hSeq c.hops) :
    ∃ err c', c.relaySeal A payload = (.error err, c') ∧ Spent c2hSeq c'.hops ∧
      c'.hops.length = c.hops.length := by
  unfold Circuit.relaySeal
  split_ifs
  · exact ⟨_, c, rfl, h, rfl⟩
  · exact ⟨_, c, rfl, h, rfl⟩
  split
  · exact ⟨_, c, rfl, h, rfl⟩
  dsimp only
  obtain ⟨hf, hs⟩ := advanceAll_spent _ (fun h n => { h with c2hSeq := n }) _ h
  rw [hf]
  exact ⟨_, _, rfl, hs, length_advanceAll _ _ _⟩

section Line

variable (A) (id : ℕ → UInt32) (hops : List CircuitHop) (sent : List Bytes)

def bytesAt (k i : ℕ) : Bytes := wrapped A ((advanced i hops).drop k) (sent.getD i [])

def cellAt (k i : ℕ) : Cell := ⟨id k, cmdRelay, bytesAt A hops sent k i⟩

/-- The payload passes every bridge. -/
structure Good (payload : Bytes) (i : ℕ) : Prop where
  stream : isStream payload = true
  fits : payload.length + 16 * hops.length ≤ maxCellPayload
  room : ∀ h ∈ hops, h.c2hSeq + i + 1 < 2 ^ 64
  layers : ∀ k < hops.length, 0 < k →
    isControl (wrapped A ((advanced i hops).drop k) payload) = false

/-- The links hold the payloads under their layers. -/
structure Flow (s : ForwardChain) (passed : ℕ → ℕ) : Prop where
  line : Holds hops.length (cellAt A id hops s.sent) s.queue passed
  entered : passed 0 = s.sent.length
  exits : s.exits = s.sent.take (passed hops.length)
  length : s.client.hops.length = hops.length
  client : s.client.destroyed = false ∧ s.client.epoch = 0 ∧
    s.client.hops = advanced s.sent.length hops ∨ Spent c2hSeq s.client.hops
  good : ∀ i payload, s.sent[i]? = some payload → Good A hops payload i
  bridge : ∀ k hop, hops[k]? = some hop → HopReady (s.bridge k) id hops.length k
    { hop with c2hSeq := hop.c2hSeq + passed (k + 1) }
  quiet : ∀ k, hops.length ≤ k → s.queue k = []

variable {A} {id} {hops} {sent}

lemma bytesAt_last (h : sent[i]? = some payload) : bytesAt A hops sent hops.length i = payload := by
  unfold bytesAt
  rw [drop_of_length_le (by simp), wrapped, getD_eq_getElem?_getD, h, getD_some]

lemma bytesAt_append (hi : i < sent.length) :
    bytesAt A hops (sent ++ [payload]) k i = bytesAt A hops sent k i := by
  unfold bytesAt
  rw [getD_eq_getElem?_getD, getElem?_append_left hi, ← getD_eq_getElem?_getD]

lemma length_bytesAt (hA : A.Lawful) (h : sent[i]? = some payload) (hg : Good A hops payload i) :
    (bytesAt A hops sent k i).length = payload.length + 16 * (hops.length - k) := by
  have hf := hg.fits
  unfold bytesAt
  rw [getD_eq_getElem?_getD, h, getD_some, length_wrapped hA]
  · simp
  · simp only [length_drop, length_advanced]
    omega

lemma open_bytesAt (hA : A.Lawful) (h : sent[i]? = some payload) (hg : Good A hops payload i)
    (hk : hops[k]? = some hop) :
    onionOpen A [hop.forward] (bytesAt A hops sent k i) dirClientToHop 0 (hop.c2hSeq + i) =
      .ok (bytesAt A hops sent (k + 1) i) := by
  have hlt : k < (advanced i hops).length := by
    rw [length_advanced]
    exact (List.getElem?_eq_some_iff.1 hk).1
  have hgt : (advanced i hops)[k] = { hop with c2hSeq := hop.c2hSeq + i } := by
    have := getElem?_advanced (n := i) hk
    rwa [getElem?_eq_getElem, some.injEq] at this
  have hl := length_bytesAt hA (k := k + 1) h hg
  have hf := hg.fits
  rw [length_advanced] at hlt
  have hs : bytesAt A hops sent k i =
      sealed A hop.forward (bytesAt A hops sent (k + 1) i) dirClientToHop (hop.c2hSeq + i) := by
    unfold bytesAt
    rw [drop_eq_getElem_cons (by rwa [length_advanced]), wrapped, hgt]
  rw [hs]
  exact onionOpen_sealed hA (by omega)

variable {s : ForwardChain} {passed : ℕ → ℕ}

lemma Flow.passed_le (h : Flow A id hops s passed) (hk : k ≤ hops.length) :
    passed k ≤ s.sent.length := by
  rw [← h.entered]
  exact h.line.antitone (zero_le k) hk

lemma Flow.head (h : Flow A id hops s passed) (hq : s.queue k = cell :: rest) :
    k < hops.length ∧ cell = cellAt A id hops s.sent k (passed (k + 1)) ∧
      ∃ payload, s.sent[passed (k + 1)]? = some payload ∧ Good A hops payload (passed (k + 1)) := by
  have hk : k < hops.length := by
    by_contra hge
    rw [h.quiet k (not_lt.1 hge)] at hq
    cases hq
  obtain ⟨hlt, hc, -⟩ := h.line.head hk hq
  have hle := h.passed_le (le_of_lt hk)
  have hs := getElem?_eq_getElem (lt_of_lt_of_le hlt hle)
  exact ⟨hk, hc, _, hs, h.good _ _ hs⟩

lemma Flow.peel (hA : A.Lawful) (h : Flow A id hops s passed) (hq : s.queue k = cell :: rest)
    (now : Instant) :
    ∃ e, (s.bridge k).circuits.lookup (id k) = some e ∧
      (s.bridge k).peelRelay A (id k) cell.body now =
        .ok ({ e with forwardSeq := e.forwardSeq + 1, lastActivity := now },
          bytesAt A hops s.sent (k + 1) (passed (k + 1))) ∧
      isControl (bytesAt A hops s.sent (k + 1) (passed (k + 1))) = false := by
  obtain ⟨hk, rfl, payload, hp, hg⟩ := h.head hq
  have hh := getElem?_eq_getElem hk
  obtain ⟨e, he, hs, hky, hsq, -, -⟩ := (h.bridge k _ hh).entry
  refine ⟨e, he, peelRelay_eq he hs hky ?_ ?_, ?_⟩
  · rw [hsq]
    exact open_bytesAt hA hp hg hh
  · rw [hsq]
    exact hg.room _ (getElem_mem hk)
  rcases lt_or_ge (k + 1) hops.length with hlt | hge
  · have hly := hg.layers (k + 1) hlt (succ_pos k)
    unfold bytesAt
    rwa [getD_eq_getElem?_getD, hp, getD_some]
  · have hl : k + 1 = hops.length := by omega
    rw [hl] at hp ⊢
    rw [bytesAt_last hp]
    exact isControl_of_isStream hg.stream

def onward (id : ℕ → UInt32) (n k : ℕ) (peeled : Bytes) : BridgeAction :=
  if k + 1 < n then .sendToNext (id (k + 1)) ⟨id (k + 1), cmdRelay, peeled⟩
  else .relayPayloadAtExit (id k) peeled

lemma Flow.reply (hA : A.Lawful) (h : Flow A id hops s passed) (hq : s.queue k = cell :: rest)
    (now : Instant) :
    ∃ e, (s.bridge k).circuits.lookup (id k) = some e ∧
      (s.bridge k).processInboundFromPrev A cell now =
        (.ok [onward id hops.length k (bytesAt A hops s.sent (k + 1) (passed (k + 1)))],
          (s.bridge k).setEntry (id k)
            { e with forwardSeq := e.forwardSeq + 1, lastActivity := now }) := by
  obtain ⟨e, he, hpl, hc⟩ := h.peel hA hq now
  obtain ⟨hk, rfl, payload, hp, hg⟩ := h.head hq
  obtain ⟨e', he', -, -, -, ha, ho⟩ := (h.bridge k _ (getElem?_eq_getElem hk)).entry
  obtain rfl := some.inj (he.symm.trans he')
  have hv : ((s.bridge k).relayMode && !e.tokenVerified) = false := by
    cases hm : (s.bridge k).relayMode with
    | false => rfl
    | true => rw [ha hm]; rfl
  refine ⟨e, he, ?_⟩
  unfold cellAt at hpl ⊢
  rw [processInboundFromPrev_relay, handleRelayFromPrev_eq hpl hc]
  unfold forwardOrExit onward
  change (if ((s.bridge k).relayMode && !e.tokenVerified) = true then _ else _) = _
  rw [hv, if_neg (by simp)]
  rw [ho]
  rcases lt_or_ge (k + 1) hops.length with hlt | hge
  · have hid : id (k + 1) ≠ 0 := (h.bridge (k + 1) _ (getElem?_eq_getElem hlt)).nonzero
    have hl := length_bytesAt hA (k := k + 1) hp hg
    have hf := hg.fits
    have hle : (bytesAt A hops s.sent (k + 1) (passed (k + 1))).length ≤ maxCellPayload := by omega
    rw [if_pos hlt, if_pos hlt]
    simp only [Cell.new_relay hid hle]
  · rw [if_neg (by omega), if_neg (by omega)]

lemma HopReady.moveOn {n : ℕ} (h : HopReady bc id n k hop)
    (he : bc.circuits.lookup (id k) = some e) :
    HopReady (bc.setEntry (id k) { e with forwardSeq := e.forwardSeq + 1, lastActivity := now }) id
      n k { hop with c2hSeq := hop.c2hSeq + 1 } := by
  obtain ⟨e', he', hs, hk, hsq, ha, ho⟩ := h.entry
  obtain rfl := some.inj (he.symm.trans he')
  exact ⟨⟨_, AList.lookup_insert _, hs, hk, congrArg succ hsq, ha, ho⟩, h.nonzero⟩

lemma Flow.deliver (hA : A.Lawful) (h : Flow A id hops s passed) (k : ℕ) (now : Instant) :
    ∃ passed', Flow A id hops (s.deliver A k now) passed' := by
  unfold ForwardChain.deliver
  split
  · exact ⟨passed, h⟩
  rename_i cell rest hq
  obtain ⟨e, he, hr⟩ := h.reply hA hq now
  obtain ⟨hk, -, payload, hp, hg⟩ := h.head hq
  refine ⟨update passed (k + 1) (passed (k + 1) + 1), ?_⟩
  have hb : ∀ j hop, hops[j]? = some hop →
      HopReady (update s.bridge k ((s.bridge k).setEntry (id k)
        { e with forwardSeq := e.forwardSeq + 1, lastActivity := now }) j) id hops.length j
        { hop with
          c2hSeq := hop.c2hSeq + update passed (k + 1) (passed (k + 1) + 1) (j + 1) } := by
    intro j hop hh
    rcases eq_or_ne j k with rfl | hne
    · rw [update_self, update_self]
      exact (h.bridge j hop hh).moveOn he
    · have hn' : j + 1 ≠ k + 1 := fun heq => hne (succ.inj heq)
      rw [update_of_ne hne, update_of_ne hn']
      exact h.bridge j hop hh
  have hen : update passed (k + 1) (passed (k + 1) + 1) 0 = s.sent.length := by exact h.entered
  rw [hr]
  unfold onward
  rcases lt_or_ge (k + 1) hops.length with hlt | hge
  · -- The peeled bytes go on the next link.
    rw [if_pos hlt]
    have hs : update s.queue k rest (k + 1) = s.queue (k + 1) :=
      update_of_ne (succ_ne_self k) _ _
    have hed : hops.length ≠ k + 1 := ne_of_gt hlt
    refine ⟨?_, hen, ?_, h.length, h.client, h.good, hb, fun j hj => ?_⟩
    · change Holds _ _ (update (update s.queue k rest) (k + 1)
        (update s.queue k rest (k + 1) ++ [_])) _
      rw [hs]
      exact h.line.move hlt hq
    · rw [update_of_ne hed]
      exact h.exits
    · change update (update s.queue k rest) (k + 1) _ j = []
      rw [update_of_ne (by omega), update_of_ne (by omega)]
      exact h.quiet j hj
  · -- The payload leaves the chain.
    have hl : k + 1 = hops.length := by omega
    rw [if_neg (by omega)]
    refine ⟨h.line.leave hl hq, hen, ?_, h.length, h.client, h.good, hb, fun j hj => ?_⟩
    · change s.exits ++ [bytesAt A hops s.sent (k + 1) (passed (k + 1))] = s.sent.take _
      rw [h.exits, ← hl, update_self, take_add_one, hp]
      rw [hl] at hp ⊢
      rw [bytesAt_last hp]
      rfl
    · change update s.queue k rest j = []
      rw [update_of_ne (by omega)]
      exact h.quiet j hj

lemma advanced_advanced (m n : ℕ) (hops : List CircuitHop) :
    advanced m (advanced n hops) = advanced (n + m) hops := by
  simp [advanced, add_assoc]

lemma Flow.enter (hA : A.Lawful) (h : Flow A id hops s passed)
    (hg : Good A hops payload s.sent.length) (hps : 0 < hops.length)
    (hl : s.client.destroyed = false) (he : s.client.epoch = 0)
    (hh : s.client.hops = advanced s.sent.length hops) :
    ∃ passed', Flow A id hops (match Cell.new (id 0) cmdRelay (wrapped A s.client.hops payload) with
      | .error _ => { s with client := { s.client with hops := advanced 1 s.client.hops } }
      | .ok cell =>
        { s with
          client := { s.client with hops := advanced 1 s.client.hops }
          queue := update s.queue 0 (s.queue 0 ++ [cell])
          sent := s.sent ++ [payload] }) passed' := by
  have hb : wrapped A s.client.hops payload =
      bytesAt A hops (s.sent ++ [payload]) 0 s.sent.length := by
    unfold bytesAt
    rw [hh, drop_zero, getD_eq_getElem?_getD, getElem?_concat_length, getD_some]
  have hn : Cell.new (id 0) cmdRelay (wrapped A s.client.hops payload) =
      .ok (cellAt A id hops (s.sent ++ [payload]) 0 (passed 0)) := by
    have hle := length_wrapped hA s.client.hops payload (h.length ▸ hg.fits)
    have hid : id 0 ≠ 0 := (h.bridge 0 _ (getElem?_eq_getElem hps)).nonzero
    rw [Cell.new_relay hid (hle.trans_le (h.length ▸ hg.fits)), cellAt, h.entered, hb]
  rw [hn]
  have hln : Holds hops.length (cellAt A id hops (s.sent ++ [payload])) s.queue passed := by
    refine h.line.congr fun k hk i hi => ?_
    have hlt := lt_of_lt_of_le hi (h.passed_le (le_of_lt hk))
    rw [cellAt, cellAt, bytesAt_append hlt]
  refine ⟨_, hln.enter hps (fun j hj => absurd hj (not_lt_zero j)) 1, ?_, ?_, ?_, .inl ?_,
    fun i p hp => ?_, fun k hop hhp => ?_, fun k hk => ?_⟩
  · rw [if_pos (le_refl 0), h.entered, length_append, length_singleton]
  · rw [if_neg (not_le.2 hps), h.exits, take_append_of_le_length (h.passed_le le_rfl)]
  · exact (length_advanced _ _).trans h.length
  · refine ⟨hl, he, ?_⟩
    rw [hh, advanced_advanced, length_append, length_singleton]
  · rcases lt_trichotomy i s.sent.length with hlt | rfl | hgt
    · rw [getElem?_append_left hlt] at hp
      exact h.good i p hp
    · rw [getElem?_concat_length] at hp
      exact some.inj hp ▸ hg
    · rw [getElem?_eq_none (by simpa using hgt)] at hp
      cases hp
  · exact h.bridge k hop hhp
  · have hk0 : k ≠ 0 := by omega
    dsimp only
    rw [update_of_ne hk0]
    exact h.quiet k hk

lemma Flow.send (hA : A.Lawful) (h : Flow A id hops s passed)
    (hok : Unmistaken A s (.send payload)) :
    ∃ passed', Flow A id hops (s.send A id payload) passed' := by
  obtain ⟨hst, hf, hlr⟩ := hok
  unfold ForwardChain.send
  by_cases hs : Spent c2hSeq s.client.hops
  · obtain ⟨err, c', heq, hs', hln⟩ := relaySeal_spent hs
    rw [heq]
    exact ⟨passed, h.line, h.entered, h.exits, hln.trans h.length, .inr hs', h.good, h.bridge,
      h.quiet⟩
  obtain ⟨hl, he, hh⟩ := h.client.resolve_right hs
  rcases eq_nil_or_concat s.client.hops with hn | ⟨_, _, hc⟩
  · -- A circuit without hops seals nothing.
    have heq : s.client.relaySeal A payload = (.error .noHops, s.client) := by
      unfold Circuit.relaySeal
      simp [hl, hn]
    rw [heq]
    exact ⟨passed, h⟩
  have hne : s.client.hops ≠ [] := by simp [hc]
  have hp : 0 < hops.length := by
    rw [← h.length]
    exact length_pos_iff.2 hne
  rw [relaySeal_eq hA hl he hne hf hs]
  have hg : Good A hops payload s.sent.length := by
    refine ⟨hst, h.length ▸ hf, fun hop hm => ?_, fun k hk hk0 => ?_⟩
    · have hm' : { hop with c2hSeq := hop.c2hSeq + s.sent.length } ∈ s.client.hops := by
        rw [hh]
        exact mem_map_of_mem hm
      by_contra hfull
      refine hs ⟨_, hm', ?_⟩
      exact if_neg hfull
    · have hly := hlr k (h.length.symm ▸ hk) hk0
      have hle : payload.length + 16 * (s.client.hops.drop k).length ≤ maxCellPayload := by
        rw [length_drop]
        omega
      unfold layersLookLikeControl at hly
      rwa [sealHops_eq hA _ _ hle, hh] at hly
  exact h.enter hA hg hp hl he hh

lemma Flow.step (hA : A.Lawful) (e : ForwardEvent) (h : ∃ passed, Flow A id hops s passed)
    (he : Unmistaken A s e) : ∃ passed, Flow A id hops (s.step A id e) passed := by
  obtain ⟨passed, h⟩ := h
  cases e with
  | send payload => exact h.send hA he
  | deliver k now => exact h.deliver hA k now

lemma Ready.flow (h : Ready id s) : Flow A id s.client.hops s fun _ => 0 := by
  refine ⟨fun k _ => ⟨le_refl 0, h.quiet k⟩, ?_, ?_, rfl, .inl ⟨h.live, h.epoch, ?_⟩,
    fun i p hp => ?_, h.hops, fun k _ => h.quiet k⟩
  · rw [h.sent]
    rfl
  · rw [h.exits, h.sent]
    rfl
  · rw [h.sent]
    simp [advanced]
  · rw [h.sent] at hp
    cases hp

lemma Flow.delivers (hA : A.Lawful) (h : Flow A id hops s passed) (e : ForwardEvent) :
    Delivers A id s e := by
  cases e with
  | send payload => trivial
  | deliver k now =>
    intro cell rest hq
    obtain ⟨e, he, hpl, -⟩ := h.peel hA hq now
    obtain ⟨e', he', hr⟩ := h.reply hA hq now
    obtain ⟨hk, -, payload, hp, -⟩ := h.head hq
    refine ⟨_, _, hpl, ?_⟩
    rw [hr, h.length]
    unfold onward
    rcases lt_or_ge (k + 1) hops.length with hlt | hge
    · rw [if_pos hlt]
      exact .inl ⟨hlt, rfl⟩
    have hl : k + 1 = hops.length := by omega
    rw [if_neg (by omega)]
    refine .inr ⟨hl, rfl, ?_⟩
    rw [h.exits, length_take_of_le (h.passed_le le_rfl), ← hl, hp]
    rw [hl] at hp ⊢
    rw [bytesAt_last hp]

end Line

/-- Every bridge sends on what it peeled, and the last one surfaces the payloads in order. -/
theorem forward_transparent {A : Aead} (hA : A.Lawful) (id : ℕ → UInt32) (start : ForwardChain)
    (hready : Ready id start) (events : List ForwardEvent)
    (h : Along (step A id) (Unmistaken A) start events) :
    Along (step A id) (Delivers A id) start events ∧
    (run (step A id) start events).exits <+: (run (step A id) start events).sent ∧
    ((∀ k, (run (step A id) start events).queue k = []) →
      (run (step A id) start events).exits = (run (step A id) start events).sent) := by
  have hst : ∃ passed, Flow A id start.client.hops start passed := ⟨_, hready.flow⟩
  refine ⟨along_of_inv (fun _ e => Flow.step hA e) ?_ start events hst h, ?_⟩
  · rintro s e ⟨passed, hs⟩ -
    exact hs.delivers hA e
  obtain ⟨passed, hr⟩ := inv_run (fun _ e => Flow.step hA e) start events hst h
  refine ⟨hr.exits ▸ List.take_prefix _ _, fun he => ?_⟩
  have hsm := hr.line.sum (Nat.zero_le _)
  simp only [he, List.length_nil, Finset.sum_const_zero] at hsm
  have hen := hr.entered
  rw [hr.exits, List.take_of_length_le (by omega)]

def openEntry (out : Option UInt32) : CircuitEntry :=
  ⟨out, .open, some HopKeys.blank, 0, 0, 0, 0, none, none, none, true, false⟩

def oneTwo (k : ℕ) : UInt32 := if k = 0 then 1 else 2

def twoBridges : ForwardChain where
  client :=
    ⟨[⟨HopKeys.blank.forward, HopKeys.blank.reverse, 0, 0⟩,
      ⟨HopKeys.blank.forward, HopKeys.blank.reverse, 0, 0⟩], 0, false⟩
  bridge k :=
    if k = 0 then
      (start .default sequentialOutCircIdPicker 0 false).setEntry 1 (openEntry (some 2))
    else (start .default sequentialOutCircIdPicker 0 false).setEntry 2 (openEntry none)
  queue _ := []
  exits := []
  sent := []

lemma twoBridges_ready : Ready oneTwo twoBridges := by
  refine ⟨rfl, rfl, fun k hop hh => ?_, fun _ => rfl, rfl, rfl⟩
  match k, hh with
  | 0, hh =>
    obtain rfl := some.inj hh
    exact ⟨⟨openEntry (some 2), rfl, rfl, rfl, rfl, fun _ => rfl, rfl⟩, by decide⟩
  | 1, hh =>
    obtain rfl := some.inj hh
    exact ⟨⟨openEntry none, rfl, rfl, rfl, rfl, fun _ => rfl, rfl⟩, by decide⟩

def dataPayload : Bytes := [cmdData, 0, 1, 7]

def destroyTagged : Aead where
  encrypt _ _ _ msg :=
    some (cmdDestroy :: beBytes 2 (13 + msg.length) ++ List.replicate 13 0 ++ msg)
  decrypt _ _ _ ct := some (ct.drop 16)

lemma destroyTagged_lawful : destroyTagged.Lawful where
  encrypt_some _ _ _ msg _ := ⟨_, rfl, by simp; omega⟩
  decrypt_encrypt h := by
    obtain rfl := some.inj h
    simp [destroyTagged, beBytes]

/-- The first bridge takes the ciphertext for the second as an order to tear the circuit down. -/
theorem ciphertext_read_as_destroy :
    destroyTagged.Lawful ∧ Ready oneTwo twoBridges ∧ isStream dataPayload = true ∧
    ∃ cell rest, (twoBridges.step destroyTagged oneTwo (.send dataPayload)).queue 0 = cell :: rest ∧
      ((twoBridges.bridge 0).processInboundFromPrev destroyTagged cell 0).1 =
        .ok [.destroyNextLink 2, .destroyPrevLink 1] := by
  refine ⟨destroyTagged_lawful, twoBridges_ready, by decide +kernel, _, [], rfl, ?_⟩
  decide +kernel

theorem forward_transparent_two : (run (step Aead.plain oneTwo) twoBridges
        [.send dataPayload, .deliver 0 0, .deliver 1 0]).exits = [dataPayload] ∧
    Along (step Aead.plain oneTwo) (Delivers Aead.plain oneTwo) twoBridges
      [.send dataPayload, .deliver 0 0, .deliver 1 0] := by
  refine ⟨by decide +kernel, (forward_transparent Aead.plain_lawful oneTwo twoBridges
    twoBridges_ready _ ?_).1⟩
  decide +kernel

end ForwardChain

end Mirage.Circuits
