import Mirage.Transport.ProtocolMux

/-!
# How a split flight is classified

On a part of the flight each attempt says what it says on the whole, or that there is too little
(`verdict_take`, `ssWinner_take`, `tryObfs_take`, `tryVless_take`).
-/

namespace Mirage.Transport

open Words Nat
open List hiding Vector

section

variable {S : SsSuite} {psk : Bytes32} {b : Bytes} {m len nowSecs : ℕ}

lemma requestSalt_take (h : saltLen ≤ m) : requestSalt (b.take m) = requestSalt b :=
  vec_take h

lemma saltKey_take (h : saltLen ≤ m) : saltKey (b.take m) = saltKey b := by
  rw [saltKey, saltKey, take_take, min_eq_left h]

lemma take_drop_take {k n : ℕ} (h : k + n ≤ m) :
    ((b.take m).drop k).take n = (b.drop k).take n := by
  rw [drop_take, take_take, min_eq_left (by omega)]

lemma headerLen_take (h : saltLen + encLenField ≤ m) :
    headerLen S psk (b.take m) = headerLen S psk b := by
  have hs : saltLen ≤ m := le_of_add_right_le h
  rw [headerLen, headerLen, requestSalt_take hs, take_drop_take h]

lemma header_take (h : openingLen len ≤ m) : header S psk (b.take m) len = header S psk b len := by
  have hs : saltLen ≤ m := by
    simp only [openingLen] at h
    omega
  have hl : saltLen + encLenField + (len + tagLen) ≤ m := by
    simp only [openingLen] at h
    omega
  rw [header, header, requestSalt_take hs, take_drop_take hl]

/-- The verdict on the first `m` bytes, from that on all of them. -/
theorem verdict_take (h : m ≤ b.length) : ss2022PeekVerifyFresh S psk (b.take m) nowSecs =
    if m < saltLen + encLenField then .needMoreBytes
    else match headerLen S psk b with
      | none => .reject
      | some len =>
        if m < openingLen len then .needMoreBytes else ss2022PeekVerifyFresh S psk b nowSecs := by
  rw [ss2022PeekVerifyFresh, length_take, min_eq_left h]
  split_ifs with hm
  · rfl
  rw [headerLen_take (not_lt.1 hm)]
  cases hl : headerLen S psk b with
  | none => rfl
  | some len =>
    simp only
    split_ifs with hln
    · rfl
    · rw [header_take (not_lt.1 hln), ss2022PeekVerifyFresh, if_neg (by omega)]
      simp only [hl]
      rw [if_neg (by omega)]

lemma verdict_of_headerLen_none (h : saltLen + encLenField ≤ b.length)
    (hl : headerLen S psk b = none) : ss2022PeekVerifyFresh S psk b nowSecs = .reject := by
  rw [ss2022PeekVerifyFresh, if_neg (not_lt.2 h)]
  simp [hl]

lemma headerLen_of_fresh (h : ss2022PeekVerifyFresh S psk b nowSecs = .fresh) :
    ∃ len, headerLen S psk b = some len ∧ openingLen len ≤ b.length := by
  rw [ss2022PeekVerifyFresh] at h
  split_ifs at h
  split at h
  · cases h
  rename_i len hl
  split_ifs at h with hln
  exact ⟨len, hl, not_lt.1 hln⟩

end

lemma checkAndInsert_cases (s : SeenNonceSet) (nonce : Bytes32) (now : ℕ) :
    s.checkAndInsert nonce now = (false, s) ∨ ∃ s', s.checkAndInsert nonce now = (true, s') := by
  rw [SeenNonceSet.checkAndInsert]
  split
  · split_ifs
    · exact .inl rfl
    · exact .inr ⟨_, rfl⟩
  · exact .inr ⟨_, rfl⟩

variable {S : MuxSuite} {config : MuxConfig} {b : Bytes} {m nowSecs now off i j : ℕ}
  {seen : SeenNonceSet} {psk : Bytes32} {psks : List Bytes32} {wuOff : Option ℕ}

lemma ssWinner_cases : ssWinner S b nowSecs now seen psks = (none, seen) ∨
    ∃ psk ∈ psks, ss2022PeekVerifyFresh S.toSsSuite psk b nowSecs = .fresh ∧
      ∃ seen', seen.checkAndInsert (saltKey b) now = (true, seen') ∧
        ssWinner S b nowSecs now seen psks = (some psk, seen') := by
  induction psks with
  | nil => exact .inl rfl
  | cons psk psks ih =>
    rw [ssWinner]
    cases hv : ss2022PeekVerifyFresh S.toSsSuite psk b nowSecs with
    | fresh =>
      rcases checkAndInsert_cases seen (saltKey b) now with hc | ⟨seen', hc⟩
      · exact .inl (by simp [hc])
      · exact .inr ⟨psk, mem_cons_self, hv, seen', hc, by simp [hc]⟩
    | reject =>
      rcases ih with hn | ⟨psk', hm, hs⟩
      · exact .inl hn
      · exact .inr ⟨psk', mem_cons_of_mem _ hm, hs⟩
    | needMoreBytes => exact .inl rfl

lemma ssWinner_eq_none (h : (ssWinner S b nowSecs now seen psks).1 = none) :
    ssWinner S b nowSecs now seen psks = (none, seen) := by
  rcases ssWinner_cases with hn | ⟨psk, -, -, seen', -, hs⟩
  · exact hn
  · rw [hs] at h
    cases h

lemma ssWinner_eq_some (h : (ssWinner S b nowSecs now seen psks).1 = some psk) :
    psk ∈ psks ∧ ss2022PeekVerifyFresh S.toSsSuite psk b nowSecs = .fresh := by
  rcases ssWinner_cases with hn | ⟨psk', hm, hv, seen', -, hs⟩
  · rw [hn] at h
    cases h
  · rw [hs] at h
    cases h
    exact ⟨hm, hv⟩

/-- The first chunk opens under one key at most. -/
def OneKey (S : MuxSuite) (psks : List Bytes32) (opening : Bytes) : Prop :=
  ∀ psk ∈ psks, ∀ psk' ∈ psks, headerLen S.toSsSuite psk opening ≠ none →
    headerLen S.toSsSuite psk' opening ≠ none → psk = psk'

lemma ssWinner_take_of_fits (hm : m ≤ b.length) (hmn : saltLen + encLenField ≤ m)
    (hf : ∀ psk ∈ psks, ∀ len, headerLen S.toSsSuite psk b = some len → openingLen len ≤ m) :
    ssWinner S (b.take m) nowSecs now seen psks = ssWinner S b nowSecs now seen psks := by
  induction psks with
  | nil => rfl
  | cons psk psks ih =>
    have hv : ss2022PeekVerifyFresh S.toSsSuite psk (b.take m) nowSecs =
        ss2022PeekVerifyFresh S.toSsSuite psk b nowSecs := by
      rw [verdict_take hm, if_neg (not_lt.2 hmn)]
      cases hl : headerLen S.toSsSuite psk b with
      | none => exact (verdict_of_headerLen_none (hmn.trans hm) hl).symm
      | some len => exact if_neg (not_lt.2 (hf psk mem_cons_self len hl))
    rw [ssWinner, ssWinner, hv, saltKey_take (le_of_add_right_le hmn),
      ih fun psk' hp' => hf psk' (mem_cons_of_mem _ hp')]

theorem ssWinner_take_of_short (hm : m ≤ b.length) (one : OneKey S psks b) (hps : psk ∈ psks)
    {len : ℕ} (hl : headerLen S.toSsSuite psk b = some len) (hs : m < openingLen len) :
    ssWinner S (b.take m) nowSecs now seen psks = (none, seen) := by
  induction psks with
  | nil => cases hps
  | cons psk' psks ih =>
    rw [ssWinner, verdict_take hm]
    by_cases hmn : m < saltLen + encLenField
    · rw [if_pos hmn]
    rw [if_neg hmn]
    cases hl' : headerLen S.toSsSuite psk' b with
    | none =>
      have ht : psk ∈ psks := by
        rcases mem_cons.1 hps with rfl | h
        · rw [hl] at hl'
          cases hl'
        · exact h
      have one' : OneKey S psks b := fun p hp p' hp' =>
        one p (mem_cons_of_mem _ hp) p' (mem_cons_of_mem _ hp')
      exact ih one' ht
    | some len' =>
      have heq := one psk hps psk' mem_cons_self (by simp [hl]) (by simp [hl'])
      subst heq
      rw [hl] at hl'
      cases hl'
      simp [if_pos hs]

lemma tryObfs_take (hm : m ≤ b.length) : tryObfs S config (b.take m) now seen =
    if 64 ≤ m then tryObfs S config b now seen else (none, seen) := by
  have hl : (b.take m).length = m := by simp [hm]
  by_cases h : 64 ≤ m
  · have hn : obfsNonce (b.take m) = obfsNonce b := vec_take (by omega)
    have ht : obfsTag (b.take m) = obfsTag b := by
      rw [obfsTag, obfsTag, drop_take, vec_take (by omega)]
    have hb := h.trans hm
    simp [tryObfs, hn, ht, hl, h, hb]
  · simp [tryObfs, hl, h]

lemma tryVless_take (hm : m ≤ b.length) :
    tryVless S config (b.take m) = (decide (26 ≤ m) && tryVless S config b) := by
  have hl : (b.take m).length = m := by simp [hm]
  cases hu : config.vlessUuid with
  | none => simp [tryVless, hu]
  | some uuid =>
    by_cases h : 26 ≤ m
    · have hb := h.trans hm
      have hg {i : ℕ} (hi : i < 26) : (b.take m).getD i 0 = b.getD i 0 := by
        simp [getD_eq_getElem?_getD, show i < m by omega]
      simp only [tryVless, hu, vlessFrameAuthorized, vlessClientFrameLen, hl, h, hb,
        hg (show 0 < 26 by decide), hg (show 17 < 26 by decide), hg (show 18 < 26 by decide),
        hg (show 21 < 26 by decide), drop_take, vec_take (show 16 ≤ m - 1 by omega),
        vec_take (show 4 ≤ m - 22 by omega), take_take,
        min_eq_left (show 2 ≤ m - 19 by omega), not_lt.2 h, not_lt.2]
      simp
    · simp [tryVless, hu, vlessClientFrameLen, hl, h]

lemma detectWuPreamble_take (hm : m ≤ b.length) : detectWuPreamble (b.take m) =
    (detectWuPreamble b).filter fun off => decide (off ≤ m) := by
  cases b with
  | nil => simp [detectWuPreamble]
  | cons lenByte rest =>
    have hn {l : ℕ} (h : m < 1 + l) :
        (if (lenByte :: rest).length < 1 + l then none
          else if (rest.take l).any fun b => !isAlphabet b then none else some (1 + l)).filter
            (fun off => decide (off ≤ m)) = none := by
      split_ifs <;> simp [h]
    cases hp : preambleBodyLen lenByte with
    | none => cases m <;> simp [detectWuPreamble, hp]
    | some l =>
      cases m with
      | zero =>
        simp only [detectWuPreamble, hp, take_zero]
        exact (hn (by omega)).symm
      | succ k =>
        have hk : (rest.take k).length = k := by simpa using hm
        simp only [detectWuPreamble, hp, take_succ_cons, length_cons, hk]
        by_cases hl : 1 + l ≤ k + 1
        · have hb : 1 + l ≤ rest.length + 1 := hl.trans hm
          rw [if_neg (not_lt.2 hl), if_neg (not_lt.2 hb), take_take,
            min_eq_left (show l ≤ k by omega)]
          split_ifs
          · rfl
          · rw [Option.filter_some, if_pos (by simpa using hl)]
        · rw [if_pos (by omega)]
          exact (hn (by omega)).symm

lemma length_of_mem_httpPrefixes : ∀ p ∈ httpPrefixes, p.length = 4 := by
  decide +kernel

lemma http_take (hm : m ≤ b.length) :
    (httpPrefixes.any fun p => p.length ≤ (b.take m).length && (b.take m).take p.length = p) =
      (decide (4 ≤ m) && httpPrefixes.any fun p => p.length ≤ b.length && b.take p.length = p) := by
  rw [Bool.eq_iff_iff]
  simp only [any_eq_true, Bool.and_eq_true, decide_eq_true_eq, length_take_of_le hm]
  constructor
  · rintro ⟨p, hp, hl, ht⟩
    rw [take_take, min_eq_left hl] at ht
    exact ⟨length_of_mem_httpPrefixes p hp ▸ hl, p, hp, hl.trans hm, ht⟩
  · rintro ⟨hm4, p, hp, -, ht⟩
    have hl := (length_of_mem_httpPrefixes p hp).trans_le hm4
    exact ⟨p, hp, hl, by rw [take_take, min_eq_left hl, ht]⟩

lemma tls_take (hm : m ≤ b.length) :
    (2 ≤ (b.take m).length ∧ (b.take m).getD 0 0 = 0x16 ∧ (b.take m).getD 1 0 = 0x03) ↔
      2 ≤ m ∧ 2 ≤ b.length ∧ b.getD 0 0 = 0x16 ∧ b.getD 1 0 = 0x03 := by
  rw [length_take_of_le hm]
  refine and_congr_right fun h => ?_
  have hg {i : ℕ} (hi : i < 2) : (b.take m).getD i 0 = b.getD i 0 := by
    simp [getD_eq_getElem?_getD, show i < m by omega]
  rw [hg (by decide), hg (by decide), and_iff_right (h.trans hm)]

/-- Two bytes of a hello and four of a request are enough. -/
theorem detectKind_take (hm : m ≤ b.length) : detectKind (b.take m) =
    match detectKind b with
    | .tls => if 2 ≤ m then .tls else .opaqueUnknown
    | .http => if 4 ≤ m then .http else .opaqueUnknown
    | .opaqueUnknown => .opaqueUnknown := by
  simp only [detectKind, tls_take hm, http_take hm, Bool.and_eq_true, decide_eq_true_eq]
  by_cases ht : 2 ≤ b.length ∧ b.getD 0 0 = 0x16 ∧ b.getD 1 0 = 0x03
  · rw [if_pos ht]
    by_cases h2 : 2 ≤ m
    · rw [if_pos ⟨h2, ht⟩, if_pos h2]
    · rw [if_neg fun h => h2 h.1, if_neg fun h => h2 (by omega), if_neg h2]
  · rw [if_neg ht, if_neg fun h => ht h.2]
    generalize (httpPrefixes.any fun p => p.length ≤ b.length && b.take p.length = p) = http
    cases http with
    | false | true => simp

inductive MuxVariant
  | tls
  | http
  | obfsTcp
  | shadowsocks
  | vless
  | unknown
  | error
  deriving DecidableEq

def MuxResult.variant : MuxResult → MuxVariant
  | .tls => .tls
  | .http => .http
  | .authenticatedObfsTcp _ _ => .obfsTcp
  | .authenticatedShadowsocks _ => .shadowsocks
  | .authenticatedVless => .vless
  | .unknown => .unknown
  | .error => .error

/-- The two answers are of one kind and consume as much. -/
def MuxAnswer.Same (a a' : MuxAnswer) : Prop :=
  a.result.variant = a'.result.variant ∧ a.consumed = a'.consumed

lemma MuxAnswer.Same.rfl {a : MuxAnswer} : a.Same a := ⟨Eq.refl _, Eq.refl _⟩

section

variable {c : Connection} {st : MuxState} {off : ℕ}

/-- The bytes start with a knock that verifies. -/
def Knock (S : MuxSuite) (config : MuxConfig) (b : Bytes) : Prop :=
  config.obfsEnabled = true ∧ 64 ≤ b.length ∧
    obfsAuthVerify S config (obfsNonce b) (obfsTag b) = true

lemma tryObfs_cases (S : MuxSuite) (config : MuxConfig) (b : Bytes) (now : ℕ)
    (seen : SeenNonceSet) : tryObfs S config b now seen = (none, seen) ∨
    Knock S config b ∧ ∃ seen', seen.checkAndInsert (obfsNonce b) now = (true, seen') ∧
      tryObfs S config b now seen = (some (obfsTag b, obfsNonce b), seen') := by
  rw [tryObfs]
  split_ifs with hv
  · simp only [Bool.and_eq_true, decide_eq_true_eq] at hv
    rcases checkAndInsert_cases seen (obfsNonce b) now with hc | ⟨seen', hc⟩
    · exact .inl (by simp [hc])
    · exact .inr ⟨⟨hv.1.1, hv.1.2, hv.2⟩, seen', hc, by simp [hc]⟩
  · exact .inl rfl

lemma tryObfs_eq_none (h : (tryObfs S config b now seen).1 = none) :
    tryObfs S config b now seen = (none, seen) := by
  rcases tryObfs_cases S config b now seen with hn | ⟨-, seen', -, hs⟩
  · exact hn
  · rw [hs] at h
    cases h

def winnerOn (S : MuxSuite) (config : MuxConfig) (c : Connection) (buf : Bytes) (off : ℕ)
    (seen : SeenNonceSet) : Option Bytes32 × SeenNonceSet :=
  if off + ss2022MinPeek ≤ buf.length then
    ssWinner S (buf.drop off) c.nowSecs c.now seen (ssPsks config)
  else (none, seen)

lemma winnerOn_eq_none (h : (winnerOn S config c b off seen).1 = none) :
    winnerOn S config c b off seen = (none, seen) := by
  rw [winnerOn] at h ⊢
  split_ifs at h ⊢
  · exact ssWinner_eq_none h
  · rfl

lemma winnerOn_eq_some (h : (winnerOn S config c b off seen).1 = some psk) :
    psk ∈ ssPsks config ∧ off + ss2022MinPeek ≤ b.length ∧
      ∃ len, headerLen S.toSsSuite psk (b.drop off) = some len ∧
        off + openingLen len ≤ b.length := by
  rw [winnerOn] at h
  split_ifs at h with hm
  · obtain ⟨hmm, hf⟩ := ssWinner_eq_some h
    obtain ⟨len, hl, hle⟩ := headerLen_of_fresh hf
    refine ⟨hmm, hm, len, hl, ?_⟩
    rw [length_drop] at hle
    omega

lemma winnerOn_take_of_fits (hm : m ≤ b.length) (one : OneKey S (ssPsks config) (b.drop off))
    {len : ℕ} (hw : (winnerOn S config c b off seen).1 = some psk)
    (hl : headerLen S.toSsSuite psk (b.drop off) = some len) (hf : off + openingLen len ≤ m) :
    winnerOn S config c (b.take m) off seen = winnerOn S config c b off seen := by
  obtain ⟨hmm, hmn, -⟩ := winnerOn_eq_some hw
  have h34 : ss2022MinPeek ≤ openingLen len := by
    simp only [openingLen, ss2022MinPeek, saltLen, encLenField, tagLen]
    omega
  rw [winnerOn, winnerOn, if_pos hmn, length_take_of_le hm, if_pos (by omega), drop_take]
  refine ssWinner_take_of_fits (by rw [length_drop]; omega) ?_ fun psk' hm' len' hl' => ?_
  · simp only [ss2022MinPeek] at h34
    simp only [saltLen, encLenField, tagLen]
    omega
  · have heq := one psk hmm psk' hm' (by simp [hl]) (by simp [hl'])
    subst heq
    rw [hl] at hl'
    cases hl'
    omega

lemma winnerOn_take_of_short (hm : m ≤ b.length) (one : OneKey S (ssPsks config) (b.drop off))
    {len : ℕ} (hmm : psk ∈ ssPsks config) (hl : headerLen S.toSsSuite psk (b.drop off) = some len)
    (hs : m < off + openingLen len) : winnerOn S config c (b.take m) off seen = (none, seen) := by
  rw [winnerOn]
  split_ifs with hmn
  · have hln : (b.take m).length = m := by simp [hm]
    rw [drop_take]
    exact ssWinner_take_of_short (by rw [length_drop]; omega) one hmm hl (by omega)
  · rfl

lemma winnerOn_take_of_none (hm : m ≤ b.length) (one : OneKey S (ssPsks config) (b.drop off))
    (hw : (winnerOn S config c b off seen).1 = none) :
    winnerOn S config c (b.take m) off seen = (none, seen) := by
  by_cases hf : ∀ psk ∈ ssPsks config, ∀ len,
      headerLen S.toSsSuite psk (b.drop off) = some len → off + openingLen len ≤ m
  · by_cases hmn : off + ss2022MinPeek ≤ m
    · have ha := winnerOn_eq_none hw
      rw [winnerOn, if_pos (hmn.trans hm)] at ha
      rw [winnerOn, length_take_of_le hm, if_pos hmn, drop_take, ssWinner_take_of_fits, ha]
      · rw [length_drop]
        omega
      · simp only [ss2022MinPeek] at hmn
        simp only [saltLen, encLenField, tagLen]
        omega
      · intro psk hmm len hl
        have := hf psk hmm len hl
        omega
    · rw [winnerOn, if_neg (by simpa [hm] using hmn)]
  · push Not at hf
    obtain ⟨psk, hmm, len, hl, hs⟩ := hf
    exact winnerOn_take_of_short hm one hmm hl hs

lemma serveSs_variant : (serveSs S c off psk st).1.result.variant = .shadowsocks ∨
      (serveSs S c off psk st).1.result.variant = .error := by
  rw [serveSs]
  split
  · exact .inl rfl
  · exact .inr rfl

lemma trySsThenVless_of_some
    (h : (winnerOn S config c b (wuOff.getD 0) st.seenSalts).1 = some psk) :
    trySsThenVless S config c b wuOff st = serveSs S c (wuOff.getD 0) psk
      { st with seenSalts := (winnerOn S config c b (wuOff.getD 0) st.seenSalts).2 } := by
  rw [winnerOn] at h
  simp [trySsThenVless, winnerOn, h]

lemma trySsThenVless_of_none (h : (winnerOn S config c b (wuOff.getD 0) st.seenSalts).1 = none) :
    trySsThenVless S config c b wuOff st =
      if wuOff = none ∧ tryVless S config b then (⟨.authenticatedVless, vlessClientFrameLen⟩, st)
      else (⟨.unknown, 0⟩, st) := by
  have hs := winnerOn_eq_none h
  rw [winnerOn] at h hs
  simp only [trySsThenVless, h]
  rw [hs]

lemma trySsThenVless_variant : (trySsThenVless S config c b wuOff st).1.result.variant ≠ .tls ∧
      (trySsThenVless S config c b wuOff st).1.result.variant ≠ .http ∧
      (trySsThenVless S config c b wuOff st).1.result.variant ≠ .obfsTcp := by
  cases hw : (winnerOn S config c b (wuOff.getD 0) st.seenSalts).1 with
  | some psk =>
    rw [trySsThenVless_of_some hw]
    rcases serveSs_variant with h | h <;> rw [h] <;> decide
  | none =>
    rw [trySsThenVless_of_none hw]
    split_ifs <;> simp [MuxResult.variant]

/-- The first `m` bytes have all of the opening that wins. -/
def ShowsSs (S : MuxSuite) (config : MuxConfig) (c : Connection) (b : Bytes) (off : ℕ)
    (seen : SeenNonceSet) (m : ℕ) : Prop :=
  ∀ psk len, (winnerOn S config c b off seen).1 = some psk →
    headerLen S.toSsSuite psk (b.drop off) = some len → off + openingLen len ≤ m

lemma showsSs_of_none (hw : (winnerOn S config c b off seen).1 = none) (m : ℕ) :
    ShowsSs S config c b off seen m := by
  intro psk len hw'
  rw [hw] at hw'
  cases hw'

lemma showsSs_iff {len : ℕ} (hw : (winnerOn S config c b off seen).1 = some psk)
    (hl : headerLen S.toSsSuite psk (b.drop off) = some len) :
    ShowsSs S config c b off seen m ↔ off + openingLen len ≤ m := by
  refine ⟨fun h => h psk len hw hl, fun h psk' len' hw' hl' => ?_⟩
  rw [hw] at hw'
  cases hw'
  rw [hl] at hl'
  cases hl'
  exact h

lemma trySsThenVless_take (wuOff : Option ℕ) (hm : m ≤ b.length)
    (one : OneKey S (ssPsks config) (b.drop (wuOff.getD 0))) :
    (trySsThenVless S config c (b.take m) wuOff st).1.Same
        (trySsThenVless S config c b wuOff st).1 ↔
      ShowsSs S config c b (wuOff.getD 0) st.seenSalts m ∧
        ((winnerOn S config c b (wuOff.getD 0) st.seenSalts).1 = none → wuOff = none →
          tryVless S config b = true → 26 ≤ m) := by
  cases hw : (winnerOn S config c b (wuOff.getD 0) st.seenSalts).1 with
  | some psk =>
    obtain ⟨hmm, -, len, hl, -⟩ := winnerOn_eq_some hw
    rw [showsSs_iff hw hl]
    by_cases hf : wuOff.getD 0 + openingLen len ≤ m
    · have ht := winnerOn_take_of_fits hm one hw hl hf
      refine iff_of_true ?_ ⟨hf, by simp⟩
      rw [trySsThenVless_of_some hw, trySsThenVless_of_some (by rw [ht]; exact hw), ht]
      exact .rfl
    · have ht : winnerOn S config c (b.take m) (wuOff.getD 0) st.seenSalts =
          (none, st.seenSalts) := winnerOn_take_of_short hm one hmm hl (not_le.1 hf)
      refine iff_of_false (fun hs => ?_) fun h => hf h.1
      rw [trySsThenVless_of_some hw, trySsThenVless_of_none (by rw [ht])] at hs
      have hv := hs.1
      rcases serveSs_variant with h | h <;> rw [h] at hv <;> split_ifs at hv <;> cases hv
  | none =>
    have ht := winnerOn_take_of_none hm one hw
    rw [trySsThenVless_of_none hw, trySsThenVless_of_none (by rw [ht]), tryVless_take hm]
    rw [and_iff_right (showsSs_of_none hw m)]
    by_cases hv : wuOff = none ∧ tryVless S config b = true
    · by_cases h26 : 26 ≤ m
      · simp only [hv.1, hv.2, h26, decide_true, Bool.and_self, and_self, if_true, implies_true,
          iff_true]
        exact .rfl
      · simp only [hv.1, hv.2, h26, decide_false, Bool.false_and, Bool.false_eq_true, and_false,
          if_false, and_self, if_true, forall_const, iff_false]
        rintro ⟨hvr, -⟩
        cases hvr
    · have hn : ¬ (wuOff = none ∧ (decide (26 ≤ m) && tryVless S config b) = true) := fun h =>
        hv ⟨h.1, (Bool.and_eq_true _ _ ▸ h.2).2⟩
      rw [if_neg hv, if_neg hn]
      exact iff_of_true .rfl fun _ h h' => absurd ⟨h, h'⟩ hv

/-- What has a preamble is neither a knock nor a bare opening, and the first chunk opens under one
key at most. -/
structure OneTransport (S : MuxSuite) (config : MuxConfig) (b : Bytes) : Prop where
  oneKey : ∀ off, off = 0 ∨ detectWuPreamble b = some off → OneKey S (ssPsks config) (b.drop off)
  noKnock : detectWuPreamble b ≠ none → obfsAuthVerify S config (obfsNonce b) (obfsTag b) = false
  noBare : detectWuPreamble b ≠ none → ∀ psk ∈ ssPsks config, headerLen S.toSsSuite psk b = none

lemma attempts_take_bare (one : OneTransport S config b) (hm : m ≤ b.length)
    (hwu : detectWuPreamble b = none) :
    (attempts S config c (b.take m) st).1.Same (attempts S config c b st).1 ↔
      if (tryObfs S config b c.now st.seenSalts).1.isSome then 64 ≤ m
      else ShowsSs S config c b 0 st.seenSalts m ∧
        ((winnerOn S config c b 0 st.seenSalts).1 = none →
          tryVless S config b = true → 26 ≤ m) := by
  have hw' : detectWuPreamble (b.take m) = none := by rw [detectWuPreamble_take hm, hwu]; rfl
  simp only [attempts, hwu, hw', tryObfs_take hm]
  cases hk : (tryObfs S config b c.now st.seenSalts).1 with
  | some knock =>
    have ha : tryObfs S config b c.now st.seenSalts =
        (some knock, (tryObfs S config b c.now st.seenSalts).2) := by rw [← hk]
    rw [ha]
    by_cases h64 : 64 ≤ m
    · simp only [h64, if_true, Option.isSome_some, iff_true]
      exact .rfl
    · simp only [h64, if_false, Option.isSome_some, if_true, iff_false]
      rintro ⟨hv, -⟩
      exact trySsThenVless_variant.2.2 hv
  | none =>
    simp only [tryObfs_eq_none hk, ite_self, Option.isSome_none, Bool.false_eq_true, if_false]
    refine (trySsThenVless_take none hm (one.oneKey 0 (.inl rfl))).trans ?_
    simp

lemma tryVless_of_preamble (hwu : detectWuPreamble b ≠ none) : tryVless S config b = false := by
  cases b with
  | nil => exact absurd rfl hwu
  | cons lenByte rest =>
    have hne : lenByte ≠ 0 := by
      rintro rfl
      have h0 : preambleBodyLen 0 = none := by decide +kernel
      simp [detectWuPreamble, h0] at hwu
    cases hu : config.vlessUuid <;> simp [tryVless, hu, hne]

lemma attempts_take_of_lt (one : OneTransport S config b) (hm : m ≤ b.length)
    (hwu : detectWuPreamble b = some off) (hlt : m < off) :
    (attempts S config c (b.take m) st).1 = ⟨.unknown, 0⟩ := by
  have hne : detectWuPreamble b ≠ none := by simp [hwu]
  have hw' : detectWuPreamble (b.take m) = none := by
    rw [detectWuPreamble_take hm, hwu, Option.filter_some, if_neg (by simpa using hlt)]
  have ho : tryObfs S config (b.take m) c.now st.seenSalts = (none, st.seenSalts) := by
    rw [tryObfs_take hm]
    simp [tryObfs, one.noKnock hne]
  have hwn : (winnerOn S config c b 0 st.seenSalts).1 = none := by
    cases hw : (winnerOn S config c b 0 st.seenSalts).1 with
    | none => rfl
    | some psk =>
      obtain ⟨hmm, -, len, hl, -⟩ := winnerOn_eq_some hw
      rw [drop_zero, one.noBare hne psk hmm] at hl
      cases hl
  have ht := winnerOn_take_of_none hm (one.oneKey 0 (.inl rfl)) hwn
  simp only [attempts, hw', ho]
  rw [trySsThenVless_of_none (by rw [Option.getD_none, ht]), tryVless_take hm,
    tryVless_of_preamble hne]
  simp

lemma attempts_take_wu (one : OneTransport S config b) (hm : m ≤ b.length)
    (hwu : detectWuPreamble b = some off) :
    (attempts S config c (b.take m) st).1.Same (attempts S config c b st).1 ↔
      ((winnerOn S config c b off st.seenSalts).1 ≠ none → off ≤ m) ∧
        ShowsSs S config c b off st.seenSalts m := by
  by_cases ho : off ≤ m
  · have hwx : detectWuPreamble (b.take m) = some off := by
      rw [detectWuPreamble_take hm, hwu, Option.filter_some, if_pos (by simpa using ho)]
    simp only [attempts, hwu, hwx]
    refine (trySsThenVless_take (some off) hm (one.oneKey off (.inr hwu))).trans ?_
    simp [ho]
  rw [attempts_take_of_lt one hm hwu (not_le.1 ho)]
  simp only [attempts, hwu]
  cases hw : (winnerOn S config c b off st.seenSalts).1 with
  | some psk =>
    refine iff_of_false (fun hs => ?_) fun h => ho (h.1 (by simp))
    rw [trySsThenVless_of_some hw] at hs
    have hv := hs.1
    rcases serveSs_variant with h | h <;> rw [Option.getD_some, h] at hv <;> cases hv
  | none =>
    rw [trySsThenVless_of_none hw]
    exact iff_of_true .rfl ⟨by simp, showsSs_of_none hw m⟩

end

lemma peekBuf_eq_take (flight : Bytes) (arrived size : ℕ) : peekBuf flight arrived size =
      (flight.take size).take (min arrived (flight.take size).length) := by
  have hc : (flight.take arrived).take size = (flight.take size).take arrived := by
    rw [take_take, min_comm, ← take_take]
  rw [peekBuf, hc, take_eq_take_min]

/-- A flight arrives before the deadline, and the peeks return at `instant`. -/
structure Arrival (deadline : ℕ) (c : Connection) where
  arrived : ℕ → ℕ
  first : ℕ
  instant : ℕ → ℕ
  mono : ∀ s t, s ≤ t → arrived s ≤ arrived t
  le_length : ∀ t, arrived t ≤ c.flight.length
  first_pos : 0 < arrived first
  within_budget : arrived (first + wuShortPeekBudget) = c.flight.length
  in_time : arrived deadline = c.flight.length
  first_le : first ≤ instant 0
  instant_le : instant 0 ≤ instant 1
  sleeps : ∀ i, instant (i + 1) + wuShortPeekPoll ≤ instant (i + 2)
  peek_eq : ∀ i, c.peek i = .seen (arrived (instant i))
  elapsed_eq : ∀ i, c.elapsed i = instant (i + 1) - instant 1

namespace Arrival

variable {deadline : ℕ} {c : Connection} (a : Arrival deadline c)

def seenAt (i : ℕ) : ℕ := a.arrived (a.instant i)

lemma peek_seenAt : c.peek i = .seen (a.seenAt i) := a.peek_eq i

lemma instant_mono_succ (i : ℕ) : a.instant i ≤ a.instant (i + 1) := by
  cases i with
  | zero => exact a.instant_le
  | succ i => exact le_of_add_right_le (a.sleeps i)

lemma instant_mono (h : i ≤ j) : a.instant i ≤ a.instant j :=
  monotone_nat_of_le_succ a.instant_mono_succ h

lemma seenAt_mono (h : i ≤ j) : a.seenAt i ≤ a.seenAt j :=
  a.mono _ _ (a.instant_mono h)

lemma seenAt_pos (i : ℕ) : 0 < a.seenAt i :=
  lt_of_lt_of_le a.first_pos (a.mono _ _ (a.first_le.trans (a.instant_mono (zero_le i))))

lemma instant_add (i : ℕ) : a.instant 1 + wuShortPeekPoll * i ≤ a.instant (i + 1) := by
  induction i with
  | zero => simp
  | succ i ih =>
    refine le_trans ?_ (a.sleeps i)
    rw [mul_succ]
    omega

lemma seenAt_of_budget (h : min deadline wuShortPeekBudget ≤ a.instant (i + 1) - a.instant 1) :
    a.seenAt (i + 1) = c.flight.length := by
  refine le_antisymm (a.le_length _) ?_
  have hf := a.first_le.trans a.instant_le
  have hm := a.instant_mono (show 1 ≤ i + 1 by omega)
  rcases le_total deadline wuShortPeekBudget with hd | hd
  · rw [← a.in_time]
    exact a.mono _ _ (by omega)
  · rw [← a.within_budget]
    exact a.mono _ _ (by omega)

def peeked (i : ℕ) : ℕ := min (a.seenAt i) (c.flight.take 256).length

lemma peeked_le (i : ℕ) : a.peeked i ≤ (c.flight.take 256).length := min_le_right _ _

lemma peeked_le_seenAt (i : ℕ) : a.peeked i ≤ a.seenAt i := min_le_left _ _

lemma length_peekBuf (size : ℕ) :
    (peekBuf c.flight (a.seenAt i) size).length = min (a.seenAt i) (c.flight.take size).length := by
  rw [peekBuf_eq_take, length_take, min_eq_left (min_le_right _ _)]

lemma peeked_mono (h : i ≤ j) : a.peeked i ≤ a.peeked j := by
  have := a.seenAt_mono h
  simp only [peeked]
  omega

/-- The wait ends with the first peek that sees enough, or with all there is. -/
theorem awaitRest_spec (need : ℕ) : ∀ fuel i,
    fuel + i = min deadline wuShortPeekBudget / wuShortPeekPoll + 1 →
    (∀ j < i, a.peeked (j + 1) < need) →
    ∃ j, awaitRest c (min deadline wuShortPeekBudget) need fuel i (a.peeked (i + 1)) =
        some (a.peeked (j + 1)) ∧
      (∀ k < j, a.peeked (k + 1) < need) ∧
      (need ≤ a.peeked (j + 1) ∨ a.peeked (j + 1) = (c.flight.take 256).length)
  | 0, i, hf, hb => by
    refine ⟨i, rfl, hb, .inr ?_⟩
    have ha := a.instant_add i
    have ho : min deadline wuShortPeekBudget ≤ a.instant (i + 1) - a.instant 1 := by
      have := div_add_mod (min deadline wuShortPeekBudget) wuShortPeekPoll
      simp only [wuShortPeekPoll] at *
      omega
    simp [peeked, a.seenAt_of_budget ho]
  | fuel + 1, i, hf, hb => by
    rw [awaitRest]
    split_ifs with h
    · have hnx : (if a.peeked (i + 1) < (peekBuf c.flight (a.seenAt (i + 2)) 256).length then
          (peekBuf c.flight (a.seenAt (i + 2)) 256).length else a.peeked (i + 1)) =
          a.peeked (i + 2) := by
        have hle := a.peeked_mono (show i + 1 ≤ i + 2 by omega)
        rw [length_peekBuf, ← peeked]
        split_ifs <;> omega
      simp only [a.peek_seenAt, hnx]
      refine awaitRest_spec need fuel (i + 1) (by omega) fun j hj => ?_
      rcases Nat.lt_succ_iff_lt_or_eq.1 hj with hj | rfl
      · exact hb j hj
      · exact h.1
    · refine ⟨i, rfl, hb, ?_⟩
      by_cases hn : a.peeked (i + 1) < need
      · right
        have ho : min deadline wuShortPeekBudget ≤ a.instant (i + 1) - a.instant 1 := by
          rw [← a.elapsed_eq]
          exact not_lt.1 fun hlt => h ⟨hn, hlt⟩
        simp [peeked, a.seenAt_of_budget ho]
      · exact .inl (not_lt.1 hn)

/-- What of the flight the peeks have to see. A flight that is none of these has no demands. -/
def Enough (S : MuxSuite) (config : MuxConfig) (st : MuxState) : Prop :=
  let b := c.flight.take 256
  match detectKind (c.flight.take 8) with
  | .tls => 2 ≤ a.seenAt 0
  | .http => 4 ≤ a.seenAt 0
  | .opaqueUnknown =>
    match detectWuPreamble b with
    | none =>
      if (tryObfs S config b c.now st.seenSalts).1.isSome then 64 ≤ a.seenAt 1
      else
        -- the opening up to the end of its header, or the frame
        ShowsSs S config c b 0 st.seenSalts (a.seenAt 1) ∧
          ((winnerOn S config c b 0 st.seenSalts).1 = none → tryVless S config b = true →
            26 ≤ a.seenAt 1)
    | some off =>
      -- the preamble at once, and no peek sees 34 bytes behind it but not the whole opening
      ((winnerOn S config c b off st.seenSalts).1 ≠ none → off ≤ a.seenAt 1) ∧
        ∀ i, off + ss2022MinPeek ≤ a.seenAt (i + 1) →
          ShowsSs S config c b off st.seenSalts (a.seenAt (i + 1))

end Arrival

def Connection.oneSegment (c : Connection) : Connection :=
  { c with peek := fun _ => .seen c.flight.length }

section

variable {deadline : ℕ} {c : Connection} {st : MuxState}

lemma detectKind_eq_tls (h : detectKind b = .tls) : 2 ≤ b.length := by
  rw [detectKind] at h
  split_ifs at h with ht
  exact ht.1

lemma detectKind_eq_http (h : detectKind b = .http) : 4 ≤ b.length := by
  rw [detectKind] at h
  split_ifs at h with _ hh
  obtain ⟨p, hp, hle⟩ := any_eq_true.1 hh
  simp only [Bool.and_eq_true, decide_eq_true_eq] at hle
  exact length_of_mem_httpPrefixes p hp ▸ hle.1

lemma detectWuPreamble_le (h : detectWuPreamble b = some off) : off ≤ b.length := by
  cases b with
  | nil => cases h
  | cons lenByte rest =>
    simp only [detectWuPreamble] at h
    split at h
    · cases h
    split_ifs at h with hl
    cases h
    exact not_lt.1 hl

lemma attempts_variant : (attempts S config c b st).1.result.variant ≠ .tls ∧
    (attempts S config c b st).1.result.variant ≠ .http := by
  rw [attempts]
  split
  · exact ⟨trySsThenVless_variant.1, trySsThenVless_variant.2.1⟩
  split
  · exact ⟨by simp [MuxResult.variant], by simp [MuxResult.variant]⟩
  · exact ⟨trySsThenVless_variant.1, trySsThenVless_variant.2.1⟩

lemma awaitRest_oneSegment (c : Connection) (budget need : ℕ) : ∀ fuel i,
    awaitRest c.oneSegment budget need fuel i (c.flight.take 256).length =
      some (c.flight.take 256).length
  | 0, _ => rfl
  | fuel + 1, i => by
    have hp : (peekBuf c.flight c.flight.length 256).length = (c.flight.take 256).length := by
      simp [peekBuf]
    rw [awaitRest]
    split_ifs
    · simp only [Connection.oneSegment, hp, lt_irrefl, if_false]
      exact awaitRest_oneSegment c budget need fuel (i + 1)
    · rfl

lemma accept_oneSegment (h : c.flight ≠ []) : accept S config deadline c.oneSegment st =
      match detectKind (c.flight.take 8) with
      | .tls => (⟨.tls, 0⟩, st)
      | .http => (⟨.http, 0⟩, st)
      | .opaqueUnknown => attempts S config c (c.flight.take 256) st := by
  have hp (size : ℕ) : peekBuf c.flight c.flight.length size = c.flight.take size := by
    simp [peekBuf]
  have hps : ¬ (c.flight.take 8).length < 1 := by
    have := length_pos_of_ne_nil h
    simp only [length_take]
    omega
  rw [accept]
  simp only [Connection.oneSegment, hp, if_neg hps]
  cases detectKind (c.flight.take 8) with
  | tls | http => rfl
  | opaqueUnknown =>
    cases hwu : detectWuPreamble (c.flight.take 256) with
    | none => rfl
    | some off =>
      have hr := awaitRest_oneSegment c (min deadline wuShortPeekBudget) (off + ss2022MinPeek)
        (min deadline wuShortPeekBudget / wuShortPeekPoll + 1) 0
      rw [Connection.oneSegment] at hr
      simp only [hr]
      have ht : c.flight.take (c.flight.take 256).length = c.flight.take 256 := by
        rw [length_take, ← take_take, take_length]
      rw [ht]
      rfl

namespace Arrival

variable (a : Arrival deadline c)

lemma flight_take_peeked : c.flight.take (a.peeked i) = (c.flight.take 256).take (a.peeked i) := by
  rw [take_take, min_eq_left]
  simp only [peeked, length_take]
  omega

lemma one_le_length_peekBuf : ¬ (peekBuf c.flight (a.seenAt 0) 8).length < 1 := by
  have h1 := a.seenAt_pos 0
  have h2 := a.le_length (a.instant 0)
  rw [a.length_peekBuf, length_take]
  simp only [seenAt] at h1 ⊢
  omega

lemma accept_opaque (S : MuxSuite) (config : MuxConfig) (st : MuxState)
    (hk : detectKind (peekBuf c.flight (a.seenAt 0) 8) = .opaqueUnknown) :
    ∃ j, accept S config deadline c st =
        attempts S config c ((c.flight.take 256).take (a.peeked (j + 1))) st ∧
      (detectWuPreamble ((c.flight.take 256).take (a.peeked 1)) = none → j = 0) ∧
      ∀ off, detectWuPreamble ((c.flight.take 256).take (a.peeked 1)) = some off →
        (∀ k < j, a.peeked (k + 1) < off + ss2022MinPeek) ∧
          (off + ss2022MinPeek ≤ a.peeked (j + 1) ∨
            a.peeked (j + 1) = (c.flight.take 256).length) := by
  simp only [accept, a.peek_seenAt, if_neg a.one_le_length_peekBuf, hk,
    peekBuf_eq_take _ (a.seenAt 1)]
  rw [← peeked]
  cases hwu : detectWuPreamble ((c.flight.take 256).take (a.peeked 1)) with
  | none => exact ⟨0, rfl, fun _ => rfl, fun off h => by cases h⟩
  | some off =>
    have hl : ((c.flight.take 256).take (a.peeked 1)).length = a.peeked 1 := by
      rw [length_take, min_eq_left (a.peeked_le 1)]
    obtain ⟨j, hr, hb, he⟩ := a.awaitRest_spec (off + ss2022MinPeek) _ 0 rfl
      fun j hj => absurd hj (not_lt_zero j)
    refine ⟨j, ?_, fun h => (by cases h), fun off' h => ?_⟩
    · simp only [hl] at hr ⊢
      rw [hr]
      simp [flight_take_peeked]
    · cases h
      exact ⟨hb, he⟩

/-- A flight that the first `n` bytes tell is answered as such if the first peek sees them. -/
lemma accept_told_iff {n : ℕ} {kind : ProtocolKind} {r : MuxResult}
    (hn : n ≤ (c.flight.take 8).length)
    (hr : ∀ b, (attempts S config c b st).1.result.variant ≠ r.variant)
    (hk : detectKind (peekBuf c.flight (a.seenAt 0) 8) =
      if n ≤ min (a.seenAt 0) (c.flight.take 8).length then kind else .opaqueUnknown)
    (ha : detectKind (peekBuf c.flight (a.seenAt 0) 8) = kind →
      accept S config deadline c st = (⟨r, 0⟩, st)) :
    (accept S config deadline c st).1.Same ⟨r, 0⟩ ↔ n ≤ a.seenAt 0 := by
  by_cases h : n ≤ min (a.seenAt 0) (c.flight.take 8).length
  · rw [if_pos h] at hk
    rw [ha hk]
    exact iff_of_true .rfl (h.trans (Nat.min_le_left _ _))
  · rw [if_neg h] at hk
    obtain ⟨j, ha, -⟩ := a.accept_opaque S config st hk
    rw [ha]
    exact iff_of_false (fun hs => hr _ hs.1) fun h2 => h (Nat.le_min.2 ⟨h2, hn⟩)

lemma le_peeked {n : ℕ} (h : n ≤ (c.flight.take 256).length) : n ≤ a.peeked i ↔ n ≤ a.seenAt i := by
  simp only [peeked]
  omega

lemma showsSs_peeked : ShowsSs S config c (c.flight.take 256) off st.seenSalts (a.peeked i) ↔
      ShowsSs S config c (c.flight.take 256) off st.seenSalts (a.seenAt i) := by
  cases hw : (winnerOn S config c (c.flight.take 256) off st.seenSalts).1 with
  | none => exact iff_of_true (showsSs_of_none hw _) (showsSs_of_none hw _)
  | some psk =>
    obtain ⟨-, -, len, hl, hln⟩ := winnerOn_eq_some hw
    rw [showsSs_iff hw hl, showsSs_iff hw hl, a.le_peeked hln]

lemma tryObfs_length (h : (tryObfs S config b now seen).1.isSome = true) : 64 ≤ b.length := by
  rw [tryObfs] at h
  split_ifs at h with hv
  · simp only [Bool.and_eq_true, decide_eq_true_eq] at hv
    exact hv.1.2
  · cases h

lemma tryVless_length (h : tryVless S config b = true) : 26 ≤ b.length := by
  rw [tryVless] at h
  split at h
  · cases h
  split_ifs at h with hl
  exact hl

lemma accept_bare_iff (one : OneTransport S config (c.flight.take 256))
    (hwu : detectWuPreamble (c.flight.take 256) = none) :
    (attempts S config c ((c.flight.take 256).take (a.peeked 1)) st).1.Same
        (attempts S config c (c.flight.take 256) st).1 ↔
      if (tryObfs S config (c.flight.take 256) c.now st.seenSalts).1.isSome then 64 ≤ a.seenAt 1
      else ShowsSs S config c (c.flight.take 256) 0 st.seenSalts (a.seenAt 1) ∧
        ((winnerOn S config c (c.flight.take 256) 0 st.seenSalts).1 = none →
          tryVless S config (c.flight.take 256) = true → 26 ≤ a.seenAt 1) := by
  rw [attempts_take_bare one (a.peeked_le 1) hwu, a.showsSs_peeked]
  split_ifs with hk
  · exact a.le_peeked (tryObfs_length hk)
  · refine and_congr_right fun _ => imp_congr_right fun _ => ⟨fun h hv => ?_, fun h hv => ?_⟩
    · exact (a.le_peeked (tryVless_length hv)).1 (h hv)
    · exact (a.le_peeked (tryVless_length hv)).2 (h hv)

lemma accept_wu_iff (one : OneTransport S config (c.flight.take 256))
    (hwu : detectWuPreamble (c.flight.take 256) = some off)
    (hn : detectWuPreamble ((c.flight.take 256).take (a.peeked 1)) = none → j = 0)
    (hs : ∀ off, detectWuPreamble ((c.flight.take 256).take (a.peeked 1)) = some off →
      (∀ k < j, a.peeked (k + 1) < off + ss2022MinPeek) ∧
        (off + ss2022MinPeek ≤ a.peeked (j + 1) ∨ a.peeked (j + 1) = (c.flight.take 256).length)) :
    (attempts S config c ((c.flight.take 256).take (a.peeked (j + 1))) st).1.Same
        (attempts S config c (c.flight.take 256) st).1 ↔
      ((winnerOn S config c (c.flight.take 256) off st.seenSalts).1 ≠ none → off ≤ a.seenAt 1) ∧
        ∀ i, off + ss2022MinPeek ≤ a.seenAt (i + 1) →
          ShowsSs S config c (c.flight.take 256) off st.seenSalts (a.seenAt (i + 1)) := by
  have ho := detectWuPreamble_le hwu
  rw [attempts_take_wu one (a.peeked_le _) hwu, a.showsSs_peeked, a.le_peeked ho]
  have hp : detectWuPreamble ((c.flight.take 256).take (a.peeked 1)) =
      if off ≤ a.seenAt 1 then some off else none := by
    rw [detectWuPreamble_take (a.peeked_le 1), hwu, Option.filter_some]
    simp [a.le_peeked ho]
  by_cases hf : off ≤ a.seenAt 1
  · rw [if_pos hf] at hp
    obtain ⟨hb, he⟩ := hs off hp
    have hlr : off ≤ a.seenAt (j + 1) := hf.trans (a.seenAt_mono (by omega))
    simp only [hf, hlr, implies_true, true_and]
    constructor
    · intro h i hi psk len hw hl
      obtain ⟨-, hm, -⟩ := winnerOn_eq_some hw
      -- a peek before the end of the wait sees too little for the salt and the length
      have hji : j ≤ i := by
        by_contra hlt
        have hsh := hb i (not_le.1 hlt)
        have := (a.le_peeked hm).2 hi
        omega
      exact (h psk len hw hl).trans (a.seenAt_mono (by omega))
    · intro h psk len hw hl
      rcases he with hnd | ha
      · exact h j (hnd.trans (a.peeked_le_seenAt _)) psk len hw hl
      obtain ⟨-, -, len', hl', hln⟩ := winnerOn_eq_some hw
      rw [hl] at hl'
      cases hl'
      rw [← ha] at hln
      exact hln.trans (a.peeked_le_seenAt _)
  · rw [if_neg hf] at hp
    obtain rfl := hn hp
    simp only [hf, imp_false, not_not]
    exact and_congr_right fun hw =>
      iff_of_true (showsSs_of_none hw _) fun _ _ => showsSs_of_none hw _

end Arrival

/-- A flight in parts is answered as in one segment exactly if the peeks see enough of it. -/
theorem split_flight_same_iff (a : Arrival deadline c)
    (one : OneTransport S config (c.flight.take 256)) :
    (accept S config deadline c st).1.Same (accept S config deadline c.oneSegment st).1 ↔
      a.Enough S config st := by
  have hne : c.flight ≠ [] := by
    intro h
    have h1 := a.first_pos
    have h2 := a.le_length a.first
    simp only [h, List.length_nil] at h2
    omega
  rw [accept_oneSegment hne, Arrival.Enough]
  have hkn := detectKind_take (Nat.min_le_right (a.seenAt 0) (c.flight.take 8).length)
  rw [← peekBuf_eq_take] at hkn
  cases hk : detectKind (c.flight.take 8) with
  | tls =>
    simp only [hk] at hkn
    refine a.accept_told_iff (detectKind_eq_tls hk) (fun _ => attempts_variant.1) hkn fun hk => ?_
    simp only [accept, a.peek_seenAt, if_neg a.one_le_length_peekBuf, hk]
  | http =>
    simp only [hk] at hkn
    refine a.accept_told_iff (detectKind_eq_http hk) (fun _ => attempts_variant.2) hkn fun hk => ?_
    simp only [accept, a.peek_seenAt, if_neg a.one_le_length_peekBuf, hk]
  | opaqueUnknown =>
    simp only [hk] at hkn
    obtain ⟨j, ha, hn, hsm⟩ := a.accept_opaque S config st hkn
    simp only [ha]
    cases hwu : detectWuPreamble (c.flight.take 256) with
    | none =>
      have hp : detectWuPreamble ((c.flight.take 256).take (a.peeked 1)) = none := by
        rw [detectWuPreamble_take (a.peeked_le 1), hwu]
        rfl
      obtain rfl := hn hp
      exact a.accept_bare_iff one hwu
    | some off => exact a.accept_wu_iff one hwu hn hsm

end

def inTwo (flight : Bytes) (k d : ℕ) : Connection where
  flight := flight
  peek i := .seen (if 20 * i < d then k else flight.length)
  elapsed i := 20 * i
  nowSecs := 0
  now := 0
  authSecs := 0
  authNow := 0

def Arrival.inTwo (flight : Bytes) (k d deadline : ℕ) (hk : 0 < k ∧ k ≤ flight.length)
    (hd : d ≤ wuShortPeekBudget ∧ d ≤ deadline) : Arrival deadline (inTwo flight k d) where
  arrived t := if t < d then k else flight.length
  first := 0
  instant i := 20 * i
  mono s t h := by split_ifs <;> omega
  le_length t := by
    change _ ≤ flight.length
    split_ifs <;> omega
  first_pos := by split_ifs <;> omega
  within_budget := if_neg (by omega)
  in_time := if_neg (by omega)
  first_le := Nat.zero_le _
  instant_le := by decide
  sleeps i := by
    have : wuShortPeekPoll = 5 := rfl
    omega
  peek_eq _ := rfl
  elapsed_eq i := by
    change 20 * i = _
    omega

def plainSuite : MuxSuite where
  deriveSessionKey psk _ := psk
  encrypt _ _ plain := plain
  decrypt _ _ _ := none
  deriveMagic _ := (vec 4 [], 0)
  obfsAuthTag _ _ nonce := nonce
  deriveVlessMagic _ := (vec 4 [], 0)

def obfsConfig : MuxConfig where
  bridgeStaticPk := vec 32 []
  obfsSecret := none
  ssPsk := none
  relaySsPsk := none
  obfsEnabled := true
  vlessUuid := none

def newState : MuxState :=
  ⟨.new (replayTtlSecs * 1000000000), .new (replayTtlSecs * 1000000000)⟩

def sevens : Bytes := List.replicate 64 7

/-- The second half of a knock comes 10 milliseconds after the first, before the second peek. -/
theorem split_flight_same_iff_knock :
    (accept plainSuite obfsConfig 5000 (inTwo sevens 32 10) newState).1.Same
      (accept plainSuite obfsConfig 5000 (inTwo sevens 32 10).oneSegment newState).1 := by
  have hkn : detectKind (sevens.take 8) = .opaqueUnknown := by decide +kernel
  have hwu : detectWuPreamble (sevens.take 256) = none := by decide +kernel
  have hk :
      (tryObfs plainSuite obfsConfig (sevens.take 256) 0 newState.seenSalts).1.isSome := by
    decide +kernel
  refine (split_flight_same_iff (Arrival.inTwo sevens 32 10 5000 (by decide) (by decide))
    ⟨fun _ _ psk hp => absurd hp List.not_mem_nil, fun h => absurd hwu h,
      fun h => absurd hwu h⟩).2 ?_
  simp only [Arrival.Enough, inTwo, hkn, hwu, hk, if_true]
  decide +kernel

/-- A hello and a knock that come in halves after the peeks are taken for nothing. -/
theorem split_flight_unknown : (Nonempty (Arrival 5000 (inTwo (0x16 :: 0x03 :: sevens) 1 10)) ∧
      (accept plainSuite obfsConfig 5000 (inTwo (0x16 :: 0x03 :: sevens) 1 10) newState).1 =
        ⟨.unknown, 0⟩ ∧
      (accept plainSuite obfsConfig 5000 (inTwo (0x16 :: 0x03 :: sevens) 1 10).oneSegment
        newState).1 = ⟨.tls, 0⟩) ∧ Nonempty (Arrival 5000 (inTwo sevens 32 30)) ∧
      (accept plainSuite obfsConfig 5000 (inTwo sevens 32 30) newState).1 = ⟨.unknown, 0⟩ ∧
      (accept plainSuite obfsConfig 5000 (inTwo sevens 32 30).oneSegment newState).1 =
        ⟨.authenticatedObfsTcp (vec 32 sevens) (vec 32 sevens), 64⟩ :=
  ⟨⟨⟨Arrival.inTwo _ 1 10 5000 (by decide) (by decide)⟩, by decide +kernel, by decide +kernel⟩,
    ⟨Arrival.inTwo sevens 32 30 5000 (by decide) (by decide)⟩, by decide +kernel,
    by decide +kernel⟩

end Mirage.Transport
