import Mirage.Session.Handshake
import Mirage.Proofs.Descriptor

/-!
# Which tokens a responder accepts

What follows the signatures is the same for both kinds of tokens (`acceptToken_verdict`).
-/

namespace Mirage.Discovery

open Words CapabilityToken FsCapabilityToken EpochSubkeyCert
open List hiding Vector

variable {buf : Bytes}

lemma CapabilityToken.decode_eq_ok {token : CapabilityToken} :
    decode buf = .ok token ↔ buf = token.encode := by
  have h : buf = token.encode ↔ buf.drop 0 = token.tokenId.toList ++
      (token.bridgeEd25519Pk.toList ++ (beBytes 8 token.expiresAt.toNat ++
        (token.signature.toList ++ []))) := by
    simp [encode, encodeSignedPrefix]
  rw [h, drop_eq_vec_append, drop_eq_vec_append, drop_eq_u64_append, drop_eq_vec_append, decode]
  obtain ⟨id, bridge, expires, sig⟩ := token
  have hln : tokenLen = 136 := rfl
  simp only [drop_zero, length_drop, drop_eq_nil_iff]
  by_cases hl : buf.length = tokenLen
  · rw [if_neg (not_not.2 hl)]
    simp only [Except.ok.injEq, mk.injEq]
    constructor
    · rintro ⟨hid, hb, he, hs⟩
      exact ⟨by omega, hid, by omega, hb, by omega, he, by omega, hs, by omega⟩
    · rintro ⟨-, hid, -, hb, -, he, -, hs, -⟩
      exact ⟨hid, hb, he, hs⟩
  · rw [if_pos hl]
    simp only [reduceCtorEq, false_iff]
    omega

lemma CapabilityToken.length_encode (token : CapabilityToken) : token.encode.length = 136 := by
  simp [encode, encodeSignedPrefix]

lemma EpochSubkeyCert.decode_eq_ok {cert : EpochSubkeyCert} :
    decode buf = .ok cert ↔ buf = cert.encode := by
  have h : buf = cert.encode ↔ buf.drop 0 = beBytes 8 cert.epoch.toNat ++
      (cert.subkeyPk.toList ++ (beBytes 8 cert.certValidUntil.toNat ++
        (cert.rootSig.toList ++ []))) := by
    simp [encode]
  rw [h, drop_eq_u64_append, drop_eq_vec_append, drop_eq_u64_append, drop_eq_vec_append, decode]
  obtain ⟨epoch, subkey, valid, sig⟩ := cert
  have hln : fsCertLen = 112 := rfl
  simp only [drop_zero, length_drop, drop_eq_nil_iff]
  by_cases hl : buf.length = fsCertLen
  · rw [if_neg (not_not.2 hl)]
    simp only [Except.ok.injEq, mk.injEq]
    constructor
    · rintro ⟨he, hk, hv, hs⟩
      exact ⟨by omega, he, by omega, hk, by omega, hv, by omega, hs, by omega⟩
    · rintro ⟨-, he, -, hk, -, hv, -, hs, -⟩
      exact ⟨he, hk, hv, hs⟩
  · rw [if_pos hl]
    simp only [reduceCtorEq, false_iff]
    omega

lemma EpochSubkeyCert.length_encode (cert : EpochSubkeyCert) : cert.encode.length = fsCertLen := by
  simp [encode, fsCertLen]

lemma FsCapabilityToken.decode_eq_ok {token : FsCapabilityToken} :
    decode buf = .ok token ↔ buf = token.encode := by
  have h : buf = token.encode ↔ buf.drop 0 = token.tokenId.toList ++
      (token.bridgeEd25519Pk.toList ++ (beBytes 8 token.expiresAt.toNat ++
        (token.cert.encode ++ (token.tokenSig.toList ++ [])))) := by
    simp [encode]
  rw [h, drop_eq_vec_append, drop_eq_vec_append, drop_eq_u64_append,
    drop_eq_append token.cert.length_encode, drop_eq_vec_append, decode]
  obtain ⟨id, bridge, expires, cert, sig⟩ := token
  have hln : fsTokenLen = 248 := rfl
  have hcr : fsCertLen = 112 := rfl
  simp only [drop_zero, length_drop, drop_eq_nil_iff]
  by_cases hl : buf.length = fsTokenLen
  · rw [if_neg (not_not.2 hl), ← EpochSubkeyCert.decode_eq_ok]
    cases EpochSubkeyCert.decode ((buf.drop (0 + 32 + 32 + 8)).take fsCertLen) with
    | error e => simp
    | ok cert' =>
      simp only [Except.ok.injEq, mk.injEq]
      constructor
      · rintro ⟨hid, hb, he, hc, hs⟩
        exact ⟨by omega, hid, by omega, hb, by omega, he, hc, by omega, hs, by omega⟩
      · rintro ⟨-, hid, -, hb, -, he, hc, -, hs, -⟩
        exact ⟨hid, hb, he, hc, hs⟩
  · rw [if_pos hl]
    simp only [reduceCtorEq, false_iff]
    omega

lemma FsCapabilityToken.length_encode (token : FsCapabilityToken) : token.encode.length = 248 := by
  simp [encode, EpochSubkeyCert.length_encode, fsCertLen]

end Mirage.Discovery

namespace Mirage.Session

open Words Maps Runs
open Onion (Ed25519)
open Discovery

/-- Signatures are ideal: those that verify are those that the holder of the key has made. -/
def IdealSignatures (E : Ed25519) (Signed : Bytes32 → Bytes → Bytes64 → Prop) : Prop :=
  ∀ pk msg sig, E.validKey pk = true ∧ E.verifyStrict pk msg sig = true ↔ Signed pk msg sig

section

variable {N : Noise} (Signed : Bytes32 → Bytes → Bytes64 → Prop)
  (r : HandshakeResponder N) (v : TokenVerifier) (os : Faults)

/-- The key of the operator, or the one before it in the grace period. -/
def OperatorKey (pk : Bytes32) : Prop :=
  pk = r.operatorPk ∨ v.acceptPrevOperatorPk = some pk

def BootstrapSigned (token : CapabilityToken) : Prop :=
  ∃ pk, OperatorKey r v pk ∧ Signed pk token.encodeSignedPrefix token.signature

def RefreshSigned (token : CapabilityToken) : Prop :=
  ∃ pk, v.acceptRefreshSignedBy = some pk ∧ Signed pk token.refreshSigned token.signature

/-- An operator's key signs the certificate, and its subkey the token. -/
def ChainSigned (token : FsCapabilityToken) : Prop :=
  ∃ pk, OperatorKey r v pk ∧ Signed pk token.cert.signedPrefix token.cert.rootSig ∧
    Signed token.cert.subkeyPk token.signedPrefix token.tokenSig ∧
    v.nowUnix ≤ satAdd64 token.cert.certValidUntil v.graceSeconds

/-- The token is for this bridge, has not expired, and enters the replay set. -/
def Admissible (tokenId bridgeEd25519Pk : Bytes32) (expiresAt : UInt64) : Prop :=
  bridgeEd25519Pk = r.localEd25519Pk ∧ v.nowUnix ≤ satAdd64 expiresAt v.graceSeconds ∧
    (v.replaySet.checkAndInsert tokenId (satAdd64 expiresAt v.graceSeconds) v.nowUnix os).1 = true

def LegacyAccepted (payload : Bytes) : Prop :=
  ∃ token : CapabilityToken, payload = token.encode ∧
    (BootstrapSigned Signed r v token ∨ RefreshSigned Signed v token) ∧
    Admissible r v os token.tokenId token.bridgeEd25519Pk token.expiresAt

def FsAccepted (payload : Bytes) : Prop :=
  ∃ token : FsCapabilityToken, payload = token.encode ∧ ChainSigned Signed r v token ∧
    Admissible r v os token.tokenId token.bridgeEd25519Pk token.expiresAt

end

/-- A failed check may drop what has expired, and fail to log the record. -/
structure ReplayRefused (rs : ReplaySet) (token : Record) (nowUnix : UInt64) (os : Faults)
    (rs' : ReplaySet) : Prop where
  refused : (rs.checkAndInsert token.tokenId token.expiresAt nowUnix os).1 = false
  entries : rs'.entries = rs.entries ∨ rs'.entries = retain (nowUnix ≤ ·) rs.entries
  maxEntries : rs'.maxEntries = rs.maxEntries
  log : rs'.log = rs.log ∨ ∃ log, rs.log = some log ∧ (log.append token os).1.isOk = false ∧
    rs'.log = some (log.append token os).2

/-- What the replay set is given of a token of either kind: its id, and when its grace is over. -/
def replayRecord (v : TokenVerifier) (payload : Bytes) : Record :=
  ⟨vec 32 payload, satAdd64 (.ofNat (beNat ((payload.drop 64).take 8))) v.graceSeconds⟩

/-- What a refusal leaves of a verifier. -/
structure Spared (v : TokenVerifier) (os : Faults) (payload : Bytes) (v' : TokenVerifier) :
    Prop where
  lastAcceptedTokenId : v'.lastAcceptedTokenId = v.lastAcceptedTokenId
  lastAcceptedKind : v'.lastAcceptedKind = v.lastAcceptedKind
  replaySet : v'.replaySet = v.replaySet ∨
    ReplayRefused v.replaySet (replayRecord v payload) v.nowUnix os v'.replaySet

section

variable {rs : ReplaySet} {token : Record} {nowUnix : UInt64} {os : Faults}

lemma insertLogged_refused (hn : token.tokenId ∉ rs.entries)
    (h : (rs.insertLogged token.tokenId token.expiresAt os).1 = false) :
    ∃ log, rs.log = some log ∧ (log.append token os).1.isOk = false ∧
      (rs.insertLogged token.tokenId token.expiresAt os).2
        = { rs with log := some (log.append token os).2 } := by
  obtain ⟨entries, maxEntries, _ | log⟩ := rs
  · cases h
  refine ⟨log, rfl, ?_⟩
  simp only [ReplaySet.insertLogged] at h ⊢
  rcases ha : log.append token os with ⟨_ | _, log'⟩ <;> rw [ha] at h
  · refine ⟨rfl, ?_⟩
    simp only [ReplaySet.remove, erase_insert hn]
  · cases h

lemma checkAndInsert_refused
    (h : (rs.checkAndInsert token.tokenId token.expiresAt nowUnix os).1 = false) :
    ReplayRefused rs token nowUnix os
      (rs.checkAndInsert token.tokenId token.expiresAt nowUnix os).2 := by
  have hr := h
  simp only [ReplaySet.checkAndInsert] at h ⊢
  split_ifs at h ⊢ with hm hf hs
  · exact ⟨hr, .inl rfl, rfl, .inl rfl⟩
  · exact ⟨hr, .inr rfl, rfl, .inl rfl⟩
  · have hn : token.tokenId ∉ (rs.evictExpired nowUnix).entries := by
      rw [← AList.lookup_eq_none, ReplaySet.evictExpired, lookup_retain,
        AList.lookup_eq_none.2 hm, Option.filter_none]
    obtain ⟨log, hl, ha, heq⟩ := insertLogged_refused hn h
    rw [heq]
    exact ⟨hr, .inr rfl, rfl, .inr ⟨log, hl, ha, rfl⟩⟩
  · obtain ⟨log, hl, ha, heq⟩ := insertLogged_refused hm h
    rw [heq]
    exact ⟨hr, .inl rfl, rfl, .inr ⟨log, hl, ha, rfl⟩⟩

end

/-- A check accepts if and only if `A`, and spares the state if not. -/
structure Verdict {α : Type} (v : TokenVerifier) (os : Faults) (payload : Bytes)
    (p : Except HandshakeError α × TokenVerifier) (A : Prop) (K : AcceptedTokenKind → Prop) :
    Prop where
  accepts : p.1.isOk = true ↔ A
  spares : p.1.isOk = false → Spared v os payload p.2
  kind : p.1.isOk = true → ∃ kind, p.2.lastAcceptedKind = some kind ∧ K kind

section

variable {N : Noise} {E : Ed25519} {Signed : Bytes32 → Bytes → Bytes64 → Prop}
  {r : HandshakeResponder N} {v : TokenVerifier} {os : Faults} {payload : Bytes} {A : Prop}
  {K : AcceptedTokenKind → Prop}

variable {α : Type} {kind : AcceptedTokenKind} {token : CapabilityToken}

lemma Verdict.refuses (h : ¬ A) (e : HandshakeError) :
    Verdict v os payload ((.error e, v) : Except HandshakeError α × TokenVerifier) A K :=
  ⟨⟨nofun, fun hA => absurd hA h⟩, fun _ => ⟨rfl, rfl, .inl rfl⟩, nofun⟩

lemma Verdict.followed {p : Except HandshakeError Unit × TokenVerifier}
    (h : Verdict v os payload p A K) {keys : Except HandshakeError α} (hk : keys.isOk = true) :
    Verdict v os payload (match p.1 with
      | .error e => (.error e, p.2)
      | .ok () => (keys, p.2)) A K := by
  obtain ⟨_ | _, v'⟩ := p
  · exact ⟨h.accepts, h.spares, nofun⟩
  · refine ⟨iff_of_true hk (h.accepts.1 rfl), fun hn => ?_, fun _ => h.kind rfl⟩
    rw [hk] at hn
    cases hn

lemma replayRecord_eq {tokenId pk : Bytes32} {expiresAt : UInt64} {rest : Bytes}
    (h : payload = tokenId.toList ++ pk.toList ++ beBytes 8 expiresAt.toNat ++ rest) :
    replayRecord v payload = ⟨tokenId, satAdd64 expiresAt v.graceSeconds⟩ := by
  rw [List.append_assoc, List.append_assoc] at h
  obtain ⟨-, hid, h⟩ := drop_eq_vec_append.1 (List.drop_zero.trans h)
  obtain ⟨-, -, h⟩ := drop_eq_vec_append.1 h
  obtain ⟨-, he, -⟩ := drop_eq_u64_append.1 h
  rw [List.drop_zero] at hid
  rw [replayRecord, hid, ← he]

lemma acceptToken_verdict {tokenId bridgeEd25519Pk : Bytes32} {expiresAt : UInt64}
    (hrec : replayRecord v payload = ⟨tokenId, satAdd64 expiresAt v.graceSeconds⟩) (hk : K kind) :
    Verdict v os payload (r.acceptToken v os tokenId bridgeEd25519Pk expiresAt kind)
      (Admissible r v os tokenId bridgeEd25519Pk expiresAt) K := by
  unfold HandshakeResponder.acceptToken
  split_ifs with hb hp
  · exact Verdict.refuses (fun h => hb h.1) _
  · refine Verdict.refuses (fun h => ?_) _
    exact UInt64.not_lt.2 h.2.1 (of_decide_eq_true hp)
  have hn : v.nowUnix ≤ satAdd64 expiresAt v.graceSeconds :=
    UInt64.not_lt.1 fun h => hp (decide_eq_true h)
  rcases hc : v.replaySet.checkAndInsert tokenId (satAdd64 expiresAt v.graceSeconds) v.nowUnix os
    with ⟨_ | _, rs'⟩ <;> simp only [hc]
  · refine ⟨⟨nofun, fun h => ?_⟩, fun _ => ⟨rfl, rfl, ?_⟩, nofun⟩
    · have := h.2.2
      rw [hc] at this
      cases this
    · have : ReplayRefused v.replaySet ⟨tokenId, satAdd64 expiresAt v.graceSeconds⟩ v.nowUnix os
          (v.replaySet.checkAndInsert tokenId _ v.nowUnix os).2 :=
        checkAndInsert_refused (congrArg Prod.fst hc)
      rw [hc] at this
      exact .inr (hrec ▸ this)
  · refine ⟨⟨fun _ => ⟨not_not.1 hb, hn, by rw [hc]⟩, fun _ => rfl⟩, nofun, fun _ => ?_⟩
    exact ⟨kind, rfl, hk⟩

/-! A payload is one token of its kind at most. -/

section

variable {ε T : Type} {encode : T → Bytes} {Q : T → Prop}

variable {decoded : Except ε T}

lemma encoded_iff (hd : ∀ {t}, decoded = .ok t ↔ payload = encode t) {token : T}
    (h : decoded = .ok token) : (∃ token, payload = encode token ∧ Q token) ↔ Q token := by
  refine ⟨?_, fun hQ => ⟨token, hd.1 h, hQ⟩⟩
  rintro ⟨token', ht, hQ⟩
  rw [hd.2 ht] at h
  cases h
  exact hQ

lemma not_encoded (hd : ∀ {t}, decoded = .ok t ↔ payload = encode t) {e : ε}
    (h : decoded = .error e) : ¬ ∃ token, payload = encode token ∧ Q token := by
  rintro ⟨token, ht, -⟩
  rw [hd.2 ht] at h
  cases h

end

lemma operatorKey_iff {P : Bytes32 → Prop} {c : Bytes32 → Bool} (h : ∀ pk, c pk = true ↔ P pk) :
    (c r.operatorPk || (v.acceptPrevOperatorPk.map c).getD false) = true ↔
      ∃ pk, OperatorKey r v pk ∧ P pk := by
  simp only [OperatorKey, Bool.or_eq_true, h, or_and_right, exists_or, exists_eq_left]
  refine or_congr_right ?_
  cases v.acceptPrevOperatorPk with
  | none => simp
  | some pk => simp [h]

lemma verifySignature_iff (ideal : IdealSignatures E Signed)
    (pk : Bytes32) : (token.verifySignature E pk).isOk = true ↔
      Signed pk token.encodeSignedPrefix token.signature := by
  rw [← ideal, CapabilityToken.verifySignature, checkSignature]
  cases E.validKey pk <;> cases E.verifyStrict pk _ _ <;> simp [Except.isOk, Except.toBool]

lemma refreshKind_eq_some (ideal : IdealSignatures E Signed) :
    (v.acceptRefreshSignedBy.bind fun pk => (verifyRefreshPath E token pk).toOption) = some kind ↔
      RefreshSigned Signed v token ∧ kind = .refresh := by
  rw [RefreshSigned]
  cases v.acceptRefreshSignedBy with
  | none => simp
  | some pk =>
    simp only [Option.bind_some, Option.some.injEq, exists_eq_left', ← ideal pk, verifyRefreshPath,
      checkSignature]
    cases E.validKey pk <;> cases E.verifyStrict pk token.refreshSigned token.signature <;>
      simp [Except.toOption, eq_comm]

lemma verifyChain_iff (ideal : IdealSignatures E Signed) {token : FsCapabilityToken}
    (pk : Bytes32) : (token.verifyChain E pk v.nowUnix v.graceSeconds).isOk = true ↔
      Signed pk token.cert.signedPrefix token.cert.rootSig ∧
        Signed token.cert.subkeyPk token.signedPrefix token.tokenSig ∧
        v.nowUnix ≤ satAdd64 token.cert.certValidUntil v.graceSeconds := by
  have hp : token.cert.isRetired v.nowUnix v.graceSeconds = true ↔
      ¬ v.nowUnix ≤ satAdd64 token.cert.certValidUntil v.graceSeconds := by
    rw [UInt64.not_le, EpochSubkeyCert.isRetired, isPast, decide_eq_true_iff]
  simp only [← ideal pk, ← ideal token.cert.subkeyPk, FsCapabilityToken.verifyChain,
    EpochSubkeyCert.verifyRootSig, checkSignature]
  cases E.validKey pk <;> cases E.verifyStrict pk _ _ <;>
    cases E.validKey token.cert.subkeyPk <;> cases E.verifyStrict token.cert.subkeyPk _ _ <;>
    cases hr : token.cert.isRetired v.nowUnix v.graceSeconds <;>
    simp_all [Except.isOk, Except.toBool]

variable (E os) in
lemma verifyLegacy_verdict (ideal : IdealSignatures E Signed) :
    Verdict v os payload (r.verifyLegacy E v os payload) (LegacyAccepted Signed r v os payload)
      fun kind => ∀ token, payload = CapabilityToken.encode token →
        ¬ BootstrapSigned Signed r v token → kind = .refresh := by
  unfold HandshakeResponder.verifyLegacy
  split_ifs with hl
  · refine Verdict.refuses ?_ _
    rintro ⟨token, rfl, -⟩
    exact hl token.length_encode
  cases hd : CapabilityToken.decode payload with
  | error e => exact Verdict.refuses (not_encoded CapabilityToken.decode_eq_ok hd) _
  | ok token =>
    have hp := CapabilityToken.decode_eq_ok.1 hd
    have hrec : replayRecord v payload = ⟨token.tokenId, satAdd64 token.expiresAt v.graceSeconds⟩ :=
      replayRecord_eq hp
    have hs : ((token.verifySignature E r.operatorPk).isOk || (v.acceptPrevOperatorPk.map
        fun pk => (token.verifySignature E pk).isOk).getD false) = true ↔
          BootstrapSigned Signed r v token := operatorKey_iff fun pk => verifySignature_iff ideal pk
    rw [LegacyAccepted, encoded_iff CapabilityToken.decode_eq_ok hd]
    dsimp only
    split_ifs with hb
    · rw [hs] at hb
      rw [and_iff_right (.inl hb)]
      refine acceptToken_verdict hrec fun token' ht hn => ?_
      rw [CapabilityToken.decode_eq_ok.2 ht] at hd
      cases hd
      exact absurd hb hn
    rw [hs] at hb
    split
    · rename_i kind hk
      obtain ⟨hr, rfl⟩ := (refreshKind_eq_some ideal).1 hk
      rw [and_iff_right (.inr hr)]
      exact acceptToken_verdict hrec fun _ _ _ => rfl
    · rename_i hk
      refine Verdict.refuses ?_ _
      rintro ⟨hb' | hr, -⟩
      · exact hb hb'
      · rw [(refreshKind_eq_some ideal).2 ⟨hr, rfl⟩] at hk
        cases hk

variable (E os) in
lemma verifyFs_verdict (ideal : IdealSignatures E Signed) (hk : K .bootstrap) :
    Verdict v os payload (r.verifyFs E v os payload) (FsAccepted Signed r v os payload) K := by
  unfold HandshakeResponder.verifyFs
  split_ifs with hl
  · refine Verdict.refuses ?_ _
    rintro ⟨token, rfl, -⟩
    exact hl token.length_encode
  cases hd : FsCapabilityToken.decode payload with
  | error e => exact Verdict.refuses (not_encoded FsCapabilityToken.decode_eq_ok hd) _
  | ok token =>
    have hrec : replayRecord v payload = ⟨token.tokenId, satAdd64 token.expiresAt v.graceSeconds⟩ :=
      replayRecord_eq ((FsCapabilityToken.decode_eq_ok.1 hd).trans (List.append_assoc ..))
    have hs : ((token.verifyChain E r.operatorPk v.nowUnix v.graceSeconds).isOk ||
        (v.acceptPrevOperatorPk.map fun pk =>
          (token.verifyChain E pk v.nowUnix v.graceSeconds).isOk).getD false) = true ↔
        ChainSigned Signed r v token := operatorKey_iff fun pk => verifyChain_iff ideal pk
    rw [FsAccepted, encoded_iff FsCapabilityToken.decode_eq_ok hd]
    dsimp only
    split_ifs with hb
    · refine Verdict.refuses (fun h => ?_) _
      rw [hs.2 h.1] at hb
      cases hb
    · rw [Bool.not_eq_true', Bool.not_eq_false] at hb
      rw [and_iff_right (hs.1 hb)]
      exact acceptToken_verdict hrec hk

end

section

variable {N : Noise} {r : HandshakeResponder N}

/-- The responder has what the third message needs. -/
structure Ready (r : HandshakeResponder N) : Prop where
  token : r.requireToken = true
  key : r.state = .awaitMessage3 → r.peerMlkemEk.isSome ∧ N.position r.noise ≠ 0
  answered : N.position r.noise = 2 →
    r.state = .awaitMessage3 ∧ r.mlkemCtBytes.isSome ∧ r.mlkemSs.isSome

lemma Ready.readMessage1 (lawful : N.Lawful) (h : Ready r) (wire : Bytes) :
    Ready (r.readMessage1 wire).2 := by
  simp only [HandshakeResponder.readMessage1]
  split_ifs with hs
  · exact h
  rw [ne_eq, not_not] at hs
  split
  · exact h
  split_ifs
  · exact h
  split
  · exact h
  rename_i noise hr
  have hp : N.position noise = 1 := by
    obtain ⟨h0 | h2, hn⟩ := lawful.read hr
    · rw [hn, h0]
    · rw [(h.answered h2).1] at hs
      cases hs
  split_ifs
  · refine ⟨h.token, fun h3 => ?_, fun h2 => ?_⟩
    · rw [hs] at h3
      cases h3
    · rw [hp] at h2
      cases h2
  · refine ⟨h.token, fun _ => ⟨rfl, ?_⟩, fun h2 => ?_⟩
    · rw [hp]
      exact Nat.one_ne_zero
    · rw [hp] at h2
      cases h2

lemma Ready.writeMessage2 (lawful : N.Lawful) (h : Ready r)
    (encapsulated : Option (Bytes × Bytes32)) : Ready (r.writeMessage2 encapsulated).2 := by
  simp only [HandshakeResponder.writeMessage2]
  split_ifs with hs
  · exact h
  rw [ne_eq, not_not] at hs
  split
  · exact h
  · exact h
  rename_i ct ss hek
  split
  · exact ⟨h.token, h.key, fun h2 => ⟨hs, rfl, rfl⟩⟩
  rename_i noise hw
  have hp := (lawful.write hw).2
  have hr : Ready { r with mlkemCtBytes := some ct, mlkemSs := some ss, noise := noise } :=
    ⟨h.token, fun h3 => ⟨(h.key h3).1, by rw [hp]; exact two_ne_zero⟩, fun _ => ⟨hs, rfl, rfl⟩⟩
  split_ifs
  · exact hr
  · exact hr

lemma ready_run (lawful : N.Lawful) {noise : N.State} (hn : N.position noise = 0)
    (localEd25519Pk operatorPk : Bytes32) (calls : List ResponderCall) :
    Ready (run HandshakeResponder.step (.new noise localEd25519Pk operatorPk) calls) := by
  refine inv_run (fun r call h _ => ?_) _ calls ?_ (along_true _ _)
  · cases call with
    | readMessage1 wire => exact h.readMessage1 lawful wire
    | writeMessage2 encapsulated => exact h.writeMessage2 lawful encapsulated
  · refine ⟨rfl, nofun, fun h2 => ?_⟩
    rw [show N.position (HandshakeResponder.new noise localEd25519Pk operatorPk).noise
      = N.position noise from rfl, hn] at h2
    cases h2

lemma finish_isOk (blake3 : Bytes → Bytes32) (lawful : N.Lawful) (h : Ready r)
    (hp : N.position r.noise = 2) {noise : N.State} (hn : N.position noise = 3) :
    (HandshakeResponder.finish blake3 { r with noise }).isOk = true := by
  obtain ⟨hs, hct, hss⟩ := h.answered hp
  obtain ⟨ek, hek⟩ := Option.isSome_iff_exists.1 (h.key hs).1
  obtain ⟨ct, hct⟩ := Option.isSome_iff_exists.1 hct
  obtain ⟨ss, hss⟩ := Option.isSome_iff_exists.1 hss
  obtain ⟨transport, htr⟩ := Option.isSome_iff_exists.1 (lawful.transport _ hn)
  simp only [HandshakeResponder.finish, lawful.hash, ne_eq, not_true_eq_false, if_false, hek, hct,
    hss, htr]
  rfl

lemma length_decodeMessage3 {wire msg : Bytes} (h : decodeMessage3 wire = .ok msg) :
    msg.length = 64 ∨ msg.length = 200 ∨ msg.length = 312 := by
  rw [decodeMessage3] at h
  generalize (if wire.length = _ then msgType3Fs else msgType3) = msgType at h
  split at h
  · cases h
  rename_i hl
  split at h
  · cases h
  split at h <;> cases h
  simp only [noiseMsg3LenNoToken, noiseMsg3LenWithToken, noiseMsg3LenWithFsToken] at hl
  rw [List.length_drop]
  omega

end

section

variable {N : Noise} {Signed : Bytes32 → Bytes → Bytes64 → Prop}
  {r : HandshakeResponder N} {v : TokenVerifier} {os : Faults} {payload : Bytes}

lemma LegacyAccepted.length (h : LegacyAccepted Signed r v os payload) : payload.length = 136 := by
  obtain ⟨token, rfl, -⟩ := h
  exact token.length_encode

lemma FsAccepted.length (h : FsAccepted Signed r v os payload) : payload.length = 248 := by
  obtain ⟨token, rfl, -⟩ := h
  exact token.length_encode

lemma not_accepted (h : payload.length ≠ 136) (h' : payload.length ≠ 248) :
    ¬ (LegacyAccepted Signed r v os payload ∨ FsAccepted Signed r v os payload) := by
  rintro (hA | hA)
  · exact h hA.length
  · exact h' hA.length

end

/-- A payload is accepted exactly if it is a token with good signatures that is admissible. -/
theorem token_accepted_iff {N : Noise} (lawful : N.Lawful) {E : Ed25519}
    {Signed : Bytes32 → Bytes → Bytes64 → Prop} (ideal : IdealSignatures E Signed)
    (blake3 : Bytes → Bytes32) {noise : N.State} (hnoise : N.position noise = 0)
    (localEd25519Pk operatorPk : Bytes32) (calls : List ResponderCall) {r : HandshakeResponder N}
    (hr : run HandshakeResponder.step (.new noise localEd25519Pk operatorPk) calls = r)
    {wire msg payload : Bytes} {noise' : N.State} (hdecode : decodeMessage3 wire = .ok msg)
    (hread : N.readMessage r.noise msg = some (payload, noise')) (v : TokenVerifier) (os : Faults) :
    ((r.readMessage3 E blake3 wire v os).1.isOk = true ↔
      LegacyAccepted Signed r v os payload ∨ FsAccepted Signed r v os payload) ∧
    ((r.readMessage3 E blake3 wire v os).1.isOk = false →
      Spared v os payload (r.readMessage3 E blake3 wire v os).2) ∧
    ((r.readMessage3 E blake3 wire v os).1.isOk = true →
      ∀ token : CapabilityToken, payload = token.encode → ¬ BootstrapSigned Signed r v token →
        (r.readMessage3 E blake3 wire v os).2.lastAcceptedKind = some .refresh) := by
  have hrd : Ready r := hr ▸ ready_run lawful hnoise localEd25519Pk operatorPk calls
  suffices hv : Verdict v os payload (r.readMessage3 E blake3 wire v os)
      (LegacyAccepted Signed r v os payload ∨ FsAccepted Signed r v os payload)
      fun kind => ∀ token, payload = CapabilityToken.encode token →
        ¬ BootstrapSigned Signed r v token → kind = .refresh by
    refine ⟨hv.accepts, hv.spares, fun hok token ht hn => ?_⟩
    obtain ⟨kind, hkn, hk⟩ := hv.kind hok
    rw [hkn, hk token ht hn]
  have hl := length_decodeMessage3 hdecode
  obtain ⟨hp | hp, hnx⟩ := lawful.read hread
  · have hfr := lawful.first hp hread
    have hs : r.state ≠ .awaitMessage3 := fun hs => (hrd.key hs).2 hp
    simp only [HandshakeResponder.readMessage3, hs, ne_eq, not_false_eq_true, if_true]
    exact Verdict.refuses (not_accepted (by omega) (by omega)) _
  have hth := lawful.third hp hread
  have hs := (hrd.answered hp).1
  rw [hp] at hnx
  have hf := finish_isOk blake3 lawful hrd hp hnx
  simp only [HandshakeResponder.readMessage3, hs, hdecode, hrd.token, hread, ne_eq,
    not_true_eq_false, if_false]
  rcases hl with hl | hl | hl
  · simp only [hl, noiseMsg3LenWithToken, noiseMsg3LenWithFsToken]
    exact Verdict.refuses (not_accepted (by omega) (by omega)) _
  · have hfs : ¬ FsAccepted Signed r v os payload := fun h => by
      have := h.length
      omega
    rw [or_iff_left hfs]
    simp only [hl, noiseMsg3LenWithToken, noiseMsg3LenWithFsToken]
    exact (verifyLegacy_verdict E os ideal).followed hf
  · have hlg : ¬ LegacyAccepted Signed r v os payload := fun h => by
      have := h.length
      omega
    rw [or_iff_right hlg]
    simp only [hl, noiseMsg3LenWithToken, noiseMsg3LenWithFsToken]
    refine (verifyFs_verdict E os ideal fun token ht => ?_).followed hf
    have := token.length_encode
    rw [← ht] at this
    omega

open Onion.OnionDescriptor (echoScheme)

def plainRead (s : ℕ) (msg : Bytes) : Option (Bytes × ℕ) :=
  if s = 0 ∧ 32 ≤ msg.length then some (msg.drop 32, 1)
  else if s = 2 ∧ 64 ≤ msg.length then some (msg.drop 64, 3) else none

def plainNoise : Noise where
  State := ℕ
  TransportState := Unit
  position s := s
  readMessage := plainRead
  writeMessage s payload :=
    if s = (1 : ℕ) then some (.replicate 80 0 ++ payload ++ .replicate 16 0, (2 : ℕ)) else none
  getHandshakeHash _ := .replicate 32 0
  intoTransportMode _ := some ()

lemma plainRead_eq_some {s s' : ℕ} {msg payload : Bytes}
    (h : plainRead s msg = some (payload, s')) : s = 0 ∧ s' = 1 ∧ msg.length = payload.length + 32 ∨
      s = 2 ∧ s' = 3 ∧ msg.length = payload.length + 64 := by
  rw [plainRead] at h
  split_ifs at h with h0 h2 <;> cases h <;> rw [List.length_drop] <;> omega

lemma plainNoise_lawful : plainNoise.Lawful where
  read h := by
    rcases plainRead_eq_some h with ⟨rfl, rfl, -⟩ | ⟨rfl, rfl, -⟩
    · exact ⟨.inl rfl, rfl⟩
    · exact ⟨.inr rfl, rfl⟩
  write {s payload msg s'} h := by
    have hs : s = (1 : ℕ) := by
      by_contra hs
      rw [show plainNoise.writeMessage s payload = none from if_neg hs] at h
      cases h
    subst hs
    cases h
    exact ⟨rfl, rfl⟩
  first h0 h := by
    rcases plainRead_eq_some h with ⟨-, -, hl⟩ | ⟨rfl, -, -⟩
    · exact hl
    · cases h0
  third h2 h := by
    rcases plainRead_eq_some h with ⟨rfl, -, -⟩ | ⟨-, -, hl⟩
    · cases h2
    · exact hl
  hash _ := rfl
  transport _ _ := rfl

def plainStart : plainNoise.State := (0 : ℕ)

def firstMessages : List ResponderCall :=
  [.readMessage1 (handshakeMagic ++ [msgType1, 0, 1] ++ .replicate 1216 0),
    .writeMessage2 (some (.replicate 1088 0, .replicate 32 0))]

def waitingResponder : HandshakeResponder plainNoise :=
  run HandshakeResponder.step (.new plainStart (.replicate 32 2) (.replicate 32 1)) firstMessages

def sampleToken : CapabilityToken :=
  let token : CapabilityToken := ⟨.replicate 32 3, .replicate 32 2, 100, .replicate 64 0⟩
  { token with signature := echoScheme.sign (.replicate 32 1) token.encodeSignedPrefix }

def sampleMessage : Bytes := .replicate 64 0 ++ sampleToken.encode

def sampleWire : Bytes := handshakeMagic ++ [msgType3] ++ sampleMessage

def EchoSigned (pk : Bytes32) (msg : Bytes) (sig : Bytes64) : Prop :=
  echoScheme.validKey pk = true ∧ echoScheme.verifyStrict pk msg sig = true

theorem token_accepted_iff_sample :
    LegacyAccepted EchoSigned waitingResponder (.new (.new 1) 100) {} sampleToken.encode ∨
      FsAccepted EchoSigned waitingResponder (.new (.new 1) 100) {} sampleToken.encode := by
  have ideal : IdealSignatures echoScheme EchoSigned := fun _ _ _ => Iff.rfl
  have hs : plainNoise.position plainStart = 0 := rfl
  have hd : decodeMessage3 sampleWire = .ok sampleMessage := by decide +kernel
  have hr : plainRead waitingResponder.noise sampleMessage = some (sampleToken.encode, 3) := by
    decide +kernel
  have h := token_accepted_iff plainNoise_lawful ideal (fun _ => .replicate 32 0) hs
    (.replicate 32 2) (.replicate 32 1) firstMessages rfl hd hr (.new (.new 1) 100) {}
  exact h.1.1 (by decide +kernel)

def brokenVerifier : TokenVerifier :=
  .new ⟨(∅ : AList fun _ : TokenId => UInt64).insert (.replicate 32 9) 5, 1,
    some ⟨⟨mrrlHeader, []⟩, false⟩⟩ 100

/-- A refusal drops an expired entry, as its log cannot be flushed. -/
theorem refusal_drops_entries :
    let res := waitingResponder.readMessage3 echoScheme (fun _ => .replicate 32 0) sampleWire
      brokenVerifier { flush := some 0 }
    res.1.isOk = false ∧ brokenVerifier.replaySet.entries.lookup (.replicate 32 9) = some 5 ∧
      res.2.replaySet.entries.lookup (.replicate 32 9) = none := by
  decide +kernel

end Mirage.Session
