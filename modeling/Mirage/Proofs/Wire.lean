import Mirage.Discovery.Wire
import Mirage.Proofs.Descriptor

/-!
# What an announcement's bytes say

The decoder admits two formats and the encoder writes one; what is decoded is in the format of its
version byte (`decode_eq_ok`).
-/

namespace Mirage.Discovery

open Words Nat Endpoint
open List hiding Vector
open Onion (Ed25519)
open Onion.OnionDescriptor (echoScheme)

variable {buf rest : Bytes}

namespace Endpoint

def Sized : Endpoint → Prop
  | domain name _ => name.bytes.length ≤ 253
  | _ => True

variable {pos len : ℕ} {ep : Endpoint}

lemma take_port (h : pos + 2 ≤ buf.length) :
    (buf.drop pos).take 2 = beBytes 2 (portAt buf pos).toNat := by
  have hl : ((buf.drop pos).take 2).length = 2 := by
    simp only [length_take, length_drop]
    omega
  have hlt := beNat_lt ((buf.drop pos).take 2)
  have hb := beBytes_beNat ((buf.drop pos).take 2)
  rw [hl] at hlt hb
  rw [portAt, UInt16.toNat_ofNat_of_lt' hlt, hb]

lemma take_fixed {n : ℕ} (h : n + 3 ≤ buf.length) :
    buf.take (n + 3) = [buf.getD 0 0] ++ (vec n (buf.drop 1)).toList ++
      beBytes 2 (portAt buf (n + 1)).toNat := by
  rw [← take_port (by omega), toList_vec (by simp only [length_drop]; omega)]
  obtain _ | ⟨b, bs⟩ := buf
  · simp at h
  · simp [take_add]

lemma decodeDomain_eq_ok (hk : buf.getD 0 0 = 3) (h : decodeDomain buf = .ok (ep, len)) :
    ep.Sized ∧ buf.take len = ep.encode ∧ len ≤ buf.length := by
  simp only [decodeDomain] at h
  split at h
  · cases h
  split at h
  · cases h
  split at h
  · cases h
  split at h
  · cases h
  rename_i h2 hd hl _ hh
  split_ifs at h with hu hp
  obtain ⟨rfl, rfl⟩ := h
  have hn : ((buf.drop 2).take (buf.getD 1 0).toNat).length = (buf.getD 1 0).toNat := by
    simp only [length_take, length_drop]
    omega
  refine ⟨by simp only [Sized, hn]; omega, ?_, by omega⟩
  rw [encode, ← take_port (by omega)]
  simp only [hn, UInt8.ofNat_toNat]
  obtain _ | ⟨b, _ | ⟨b', bs⟩⟩ := buf
  · simp at h2
  · simp at h2
  · simp only [getD_cons_zero] at hk
    simp [take_add, hk, add_comm 2]

lemma decode_eq_ok (h : decode buf = .ok (ep, len)) :
    ep.Sized ∧ buf.take len = ep.encode ∧ len ≤ buf.length := by
  unfold decode at h
  split_ifs at h with h0 h1 hl h2 hl h3 h4 hl
  · cases h
    exact ⟨trivial, by rw [take_fixed (by omega), h1]; rfl, by omega⟩
  · cases h
    exact ⟨trivial, by rw [take_fixed (by omega), h2]; rfl, by omega⟩
  · exact decodeDomain_eq_ok h3 h
  · cases h
    exact ⟨trivial, by rw [take_fixed (by omega), h4]; rfl, by omega⟩

lemma drop_of_decode (h : decode (buf.drop pos) = .ok (ep, len)) :
    ep.Sized ∧ buf.drop pos = ep.encode ++ buf.drop (pos + len) ∧ ep.encode.length = len := by
  obtain ⟨hs, ht, hle⟩ := decode_eq_ok h
  refine ⟨hs, ?_, ?_⟩
  · rw [← ht, ← drop_drop, take_append_drop]
  · rw [← ht, length_take_of_le hle]

lemma wireLenAt_eq (hs : ep.Sized)
    (h : buf.drop pos = ep.encode ++ rest) : wireLenAt buf pos = .ok ep.encode.length := by
  have hln := congrArg length h
  rw [length_append, length_drop] at hln
  unfold wireLenAt
  cases ep with
  | ipv4 addr port | ipv6 addr port | onionV3 ascii port =>
    simp only [encode, cons_append, nil_append] at h ⊢
    obtain ⟨hp, hk, -⟩ := drop_eq_cons.1 h
    rw [if_neg (not_le.2 hp), hk]
    simp
  | domain name port =>
    simp only [encode, cons_append, nil_append] at h hln ⊢
    obtain ⟨hp, hk, h⟩ := drop_eq_cons.1 h
    obtain ⟨hp', hl, -⟩ := drop_eq_cons.1 h
    have hb : (buf.getD (pos + 1) 0).toNat = name.bytes.length := by
      rw [hl, UInt8.toNat_ofNat', mod_eq_of_lt (lt_of_le_of_lt hs (by decide))]
    simp only [length_cons, length_append, length_beBytes] at hln ⊢
    rw [if_neg (not_le.2 hp), hk, if_neg (by decide), if_neg (by decide), if_pos rfl,
      if_neg (not_le.2 hp'), hb, if_neg (by omega)]
    exact congrArg Except.ok (by omega)

lemma decodeExtras_eq_ok : ∀ {n : ℕ} {cursor cursor' : ℕ} {eps : List Endpoint},
    decodeExtras n buf cursor = .ok (eps, cursor') → eps.length = n ∧ (∀ ep ∈ eps, ep.Sized) ∧
      buf.drop cursor = eps.flatMap encode ++ buf.drop cursor' ∧
      cursor + (eps.flatMap encode).length = cursor'
  | 0, cursor, cursor', eps, h => by
    cases h
    simp
  | n + 1, cursor, cursor', eps, h => by
    unfold decodeExtras at h
    split at h
    · cases h
    rename_i ep len hep
    split at h
    · cases h
    rename_i eps' cursor'' he
    cases h
    obtain ⟨hs, hd, rfl⟩ := drop_of_decode hep
    obtain ⟨rfl, hs', hd', rfl⟩ := decodeExtras_eq_ok he
    refine ⟨rfl, forall_mem_cons.2 ⟨hs, hs'⟩, ?_, ?_⟩
    · rw [hd, hd', flatMap_cons, append_assoc]
    · rw [flatMap_cons, length_append, add_assoc]

lemma skipExtras_eq : ∀ {eps : List Endpoint} {cursor : ℕ}, (∀ ep ∈ eps, ep.Sized) →
    buf.drop cursor = eps.flatMap encode ++ rest →
    skipExtras eps.length buf cursor = .ok (cursor + (eps.flatMap encode).length)
  | [], cursor, _, _ => rfl
  | ep :: eps, cursor, hs, h => by
    rw [flatMap_cons, append_assoc] at h
    have hn : buf.drop (cursor + ep.encode.length) = eps.flatMap encode ++ rest :=
      ((drop_eq_append rfl).1 h).2
    have ih := skipExtras_eq (fun e he => hs e (mem_cons_of_mem ep he)) hn
    rw [length_cons, skipExtras, wireLenAt_eq (hs ep mem_cons_self) h]
    simp [ih, flatMap_cons, add_assoc]

end Endpoint

namespace Announcement

variable {ann : Announcement}

def header (ann : Announcement) (version : UInt8) : Bytes :=
  magic ++ [docTypeAnnouncement, version] ++ beBytes 8 ann.issuedAt.toNat ++
    beBytes 8 ann.expiresAt.toNat ++ ann.bridgeEd25519Pk.toList ++ ann.bridgeX25519Pk.toList ++
    beBytes 4 ann.transportCaps.toNat

def more (ann : Announcement) (version : UInt8) : Bytes :=
  if version = announcementVersionV01t then
    UInt8.ofNat ann.extraEndpoints.length :: ann.extraEndpoints.flatMap Endpoint.encode
  else []

def encodeAs (ann : Announcement) (version : UInt8) : Bytes :=
  ann.header version ++ (ann.endpoint.encode ++ (ann.more version ++ ann.signature.toList))

/-- What the encoding has room for. -/
structure Sized (ann : Announcement) : Prop where
  endpoint : ann.endpoint.Sized
  extras : ∀ ep ∈ ann.extraEndpoints, ep.Sized
  count : ann.extraEndpoints.length ≤ announcementMaxExtraEndpoints

lemma length_header (version : UInt8) : (ann.header version).length = 88 := by
  simp [header, magic]

lemma encodeSignedPrefix_eq : ann.encodeSignedPrefix = ann.header announcementVersionV01t ++
    (ann.endpoint.encode ++ ann.more announcementVersionV01t) := by
  simp [encodeSignedPrefix, header, more]

variable {version : UInt8} {cursor n : ℕ}

lemma decodeMore_eq_ok {cursor' : ℕ} {eps : List Endpoint}
    (h : decodeMore version buf cursor = .ok (eps, cursor')) :
    (∀ ep ∈ eps, ep.Sized) ∧ eps.length ≤ announcementMaxExtraEndpoints ∧
      buf.drop cursor = (if version = announcementVersionV01t then
        UInt8.ofNat eps.length :: eps.flatMap Endpoint.encode else []) ++ buf.drop cursor' ∧
      cursor ≤ cursor' := by
  simp only [decodeMore] at h
  split_ifs at h with hv hl hcn
  · obtain ⟨hn, hs, hd, hc⟩ := decodeExtras_eq_ok h
    refine ⟨hs, by omega, ?_, by omega⟩
    rw [if_pos hv, cons_append, drop_eq_cons]
    refine ⟨by omega, ?_, hd⟩
    rw [hn, UInt8.ofNat_toNat]
  · cases h
    rw [if_neg hv]
    exact ⟨by simp, zero_le _, by simp, le_rfl⟩

lemma eq_encodeAs (hl : 88 ≤ buf.length) (hm : buf.take 2 = magic)
    (hd : buf.getD 2 0 = docTypeAnnouncement)
    (hi : UInt64.ofNat (beNat ((buf.drop 4).take 8)) = ann.issuedAt)
    (he : UInt64.ofNat (beNat ((buf.drop 12).take 8)) = ann.expiresAt)
    (hed : vec 32 (buf.drop 20) = ann.bridgeEd25519Pk)
    (hx : vec 32 (buf.drop 52) = ann.bridgeX25519Pk)
    (hca : UInt32.ofNat (beNat ((buf.drop 84).take 4)) = ann.transportCaps)
    (hr : buf.drop 88 = ann.endpoint.encode ++
      (ann.more (buf.getD 3 0) ++ ann.signature.toList)) : buf = ann.encodeAs (buf.getD 3 0) := by
  have hcs : ((buf.drop 84).take 4).length = 4 := by
    simp only [length_take, length_drop]
    omega
  have hcp := beNat_lt ((buf.drop 84).take 4)
  have hc := beBytes_beNat ((buf.drop 84).take 4)
  rw [hcs] at hcp hc
  change buf.drop 0 = _
  simp only [encodeAs, header, append_assoc, cons_append, nil_append]
  rw [drop_eq_append (n := 2) rfl, drop_eq_cons, drop_eq_cons, drop_eq_u64_append,
    drop_eq_u64_append, drop_eq_vec_append, drop_eq_vec_append, drop_eq_append (length_beBytes 4 _)]
  simp only [drop_zero, length_drop, true_and, reduceAdd]
  refine ⟨hm, by omega, hd, by omega, by omega, hi, by omega, he, by omega, hed,
    by omega, hx, ?_, hr⟩
  rw [← hca, UInt32.toNat_ofNat_of_lt' hcp, hc]

lemma decode_eq_ok (h : decode buf = .ok ann) : ann.Sized ∧ buf = ann.encodeAs (buf.getD 3 0) := by
  simp only [decode] at h
  split_ifs at h with hln hm hdc
  split at h
  · cases h
  rename_i endpoint endpointLen he
  split at h
  · cases h
  rename_i extras cursor het
  split_ifs at h with hen
  obtain ⟨hs, hd, rfl⟩ := drop_of_decode he
  obtain ⟨hss, hc, hd', hle⟩ := decodeMore_eq_ok het
  have hsg : sigLen = 64 := rfl
  have hb : 88 ≤ buf.length := by omega
  have hl : (buf.drop cursor).length = 64 := by
    rw [length_drop]
    omega
  simp only [Except.ok.injEq] at h
  subst h
  refine ⟨⟨hs, hss, hc⟩, eq_encodeAs hb (not_not.1 hm) (not_not.1 hdc) rfl rfl rfl rfl rfl ?_⟩
  rw [hd, hd', more, toList_vec hl.ge, take_of_length_le hl.le]

lemma skipMore_eq (hs : ann.Sized) (h : buf.drop cursor = ann.more version ++ rest) :
    skipMore version buf cursor = .ok (cursor + (ann.more version).length) := by
  simp only [more, skipMore] at h ⊢
  by_cases hv : version = announcementVersionV01t
  · simp only [hv, if_true] at h ⊢
    obtain ⟨hlt, hb, hd⟩ := drop_eq_cons.1 h
    have hc := hs.count
    have hn : (buf.getD cursor 0).toNat = ann.extraEndpoints.length := by
      rw [hb, UInt8.toNat_ofNat', mod_eq_of_lt (lt_of_le_of_lt hc (by decide))]
    rw [if_neg (by omega), hn, if_neg (by omega), skipExtras_eq hs.extras hd]
    simp [add_assoc, add_comm]
  · simp only [hv, if_false, length_nil, add_zero]

lemma decodePrefix_of_decode (hn : n ≤ buf.length) (h : decode (buf.take n) = .ok ann) :
    decodePrefix buf = .ok (ann, n) := by
  obtain ⟨hs, hb⟩ := decode_eq_ok h
  have hl := congrArg length hb
  rw [length_take_of_le hn, encodeAs, length_append, length_header, length_append, length_append,
    Vector.length_toList] at hl
  have hv : (buf.take n).getD 3 0 = buf.getD 3 0 := by simp [show 3 < n by omega]
  rw [hv] at hb hl
  have ha : buf.drop 0 = ann.header (buf.getD 3 0) ++ (ann.endpoint.encode ++
      (ann.more (buf.getD 3 0) ++ (ann.signature.toList ++ buf.drop n))) := by
    nth_rewrite 1 [← take_append_drop n buf]
    rw [hb, encodeAs]
    simp
  have hf := ((drop_eq_append (length_header _)).1 ha).2
  have hm := ((drop_eq_append rfl).1 hf).2
  have hsg : sigLen = 64 := rfl
  have he : 88 + ann.endpoint.encode.length + (ann.more (buf.getD 3 0)).length + sigLen = n := by
    omega
  unfold decodePrefix
  rw [if_neg (by omega), wireLenAt_eq hs.endpoint hf]
  simp only
  rw [skipMore_eq hs hm]
  simp only [he, h, not_lt.2 hn, if_false]

lemma decodePrefix_eq_ok :
    decodePrefix buf = .ok (ann, n) ↔ n ≤ buf.length ∧ decode (buf.take n) = .ok ann := by
  refine ⟨fun h => ?_, fun h => decodePrefix_of_decode h.1 h.2⟩
  unfold decodePrefix at h
  split_ifs at h with hl
  split at h
  · cases h
  split at h
  · cases h
  split_ifs at h with he
  split at h
  · cases h
  rename_i hd
  cases h
  exact ⟨not_lt.1 he, hd⟩

/-- What is checked and written again is what was read, for the newer format only. -/
theorem decoded_is_encoded_iff (h : decode buf = .ok ann) :
    (ann.encode = buf ∧ ann.encodeSignedPrefix = buf.take (buf.length - sigLen)) ↔
      buf.getD 3 0 = announcementVersionV01t := by
  obtain ⟨-, hb⟩ := decode_eq_ok h
  constructor
  · rintro ⟨he, -⟩
    rw [← he]
    rfl
  · intro hv
    rw [hv] at hb
    have he : buf = ann.encodeSignedPrefix ++ ann.signature.toList := by
      rw [encodeSignedPrefix_eq]
      simpa only [encodeAs, append_assoc] using hb
    have hl : buf.length - sigLen = ann.encodeSignedPrefix.length := by
      have := congrArg length he
      rw [length_append, Vector.length_toList] at this
      exact Nat.sub_eq_of_eq_add this
    refine ⟨he.symm, ?_⟩
    rw [hl, he, take_left]

/-- The newer format is read as its own encoding, and `decode_prefix` finds the only length. -/
theorem announcement_canonical_iff (E : Ed25519) (buf : Bytes) : (∀ ann, decode buf = .ok ann →
      ((ann.encode = buf ∧ ann.encodeSignedPrefix = buf.take (buf.length - sigLen) ∧
        ∀ operatorPk, E.validKey operatorPk = true →
          E.verifyStrict operatorPk (buf.take (buf.length - sigLen)) ann.signature = true →
          ann.verify E operatorPk = .ok ()) ↔ buf.getD 3 0 = announcementVersionV01t)) ∧
    (∀ ann n, decodePrefix buf = .ok (ann, n) ↔ n ≤ buf.length ∧ decode (buf.take n) = .ok ann) ∧
    ∀ ann ann' n n', n ≤ buf.length → n' ≤ buf.length → decode (buf.take n) = .ok ann →
      decode (buf.take n') = .ok ann' → n = n' := by
  refine ⟨fun ann h => ⟨fun ha => ?_, fun hv => ?_⟩, fun ann n => decodePrefix_eq_ok,
    fun ann ann' n n' hn hn' h h' => ?_⟩
  · exact (decoded_is_encoded_iff h).1 ⟨ha.1, ha.2.1⟩
  · obtain ⟨he, hp⟩ := (decoded_is_encoded_iff h).2 hv
    refine ⟨he, hp, fun operatorPk hk hs => ?_⟩
    rw [← hp] at hs
    simp [verify, verifyOperator, hk, hs]
  · have hsm := (decodePrefix_of_decode hn h).symm.trans (decodePrefix_of_decode hn' h')
    cases hsm
    rfl

def legacy : Announcement :=
  let unsigned : Announcement := ⟨100, 200, .replicate 32 1, .replicate 32 2, 1,
    .ipv4 (vec 4 [198, 51, 100, 7]) 443, [], .replicate 64 0⟩
  { unsigned with
    signature := echoScheme.sign (.replicate 32 0)
      (unsigned.header announcementVersionV01 ++ unsigned.endpoint.encode) }

/-- It is decoded and was signed by its operator, and it is not verified. -/
theorem legacy_not_verified : decode (legacy.encodeAs announcementVersionV01) = .ok legacy ∧
    echoScheme.verifyStrict (.replicate 32 0)
      ((legacy.encodeAs announcementVersionV01).take
        ((legacy.encodeAs announcementVersionV01).length - sigLen)) legacy.signature = true ∧
    legacy.encode ≠ legacy.encodeAs announcementVersionV01 ∧
    legacy.verify echoScheme (.replicate 32 0) = .error (.signature "verification failed") := by
  decide +kernel

end Announcement

end Mirage.Discovery
