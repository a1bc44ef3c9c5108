import Mathlib.Data.List.MinMax
import Mirage.Onion.Descriptor

/-!
# What a descriptor's bytes say

`decode` accepts exactly the encodings of descriptors whose endpoints fit the byte of their length
(`decode_eq_ok`).
-/

namespace Mirage.Onion

open Words IntroPoint Nat
open List hiding Vector

def IntroPoint.Short (ip : IntroPoint) : Prop := ip.endpoint.bytes.length ≤ 255

variable {buf rest : Bytes}

namespace IntroPoint

lemma eq_encode_append {ip : IntroPoint} :
    buf = ip.encode ++ rest ↔ 97 ≤ buf.length ∧ vec 32 buf = ip.bridgeEd25519Pk ∧
      vec 32 (buf.drop 32) = ip.bridgeX25519Pk ∧ vec 32 (buf.drop 64) = ip.introAuthKey ∧
      buf.getD 96 0 = UInt8.ofNat ip.endpoint.bytes.length ∧
      buf.drop 97 = ip.endpoint.bytes ++ rest := by
  have h : buf = ip.encode ++ rest ↔ buf.drop 0 = ip.bridgeEd25519Pk.toList ++
      (ip.bridgeX25519Pk.toList ++ (ip.introAuthKey.toList ++
        (UInt8.ofNat ip.endpoint.bytes.length :: (ip.endpoint.bytes ++ rest)))) := by
    simp [encode]
  rw [h, drop_eq_vec_append, drop_eq_vec_append, drop_eq_vec_append, drop_eq_cons]
  simp only [drop_zero, length_drop]
  constructor
  · rintro ⟨-, h1, -, h2, -, h3, hl, h4, h5⟩
    exact ⟨by omega, h1, h2, h3, h4, h5⟩
  · rintro ⟨hl, h1, h2, h3, h4, h5⟩
    exact ⟨by omega, h1, by omega, h2, by omega, h3, by omega, h4, h5⟩

lemma decode_eq_ok {ip : IntroPoint} :
    decode buf = .ok (ip, rest) ↔ buf = ip.encode ++ rest ∧ ip.Short := by
  rw [eq_encode_append]
  obtain ⟨ed, x, key, ⟨ep, hep⟩⟩ := ip
  have h97 : introPointFixedLen + 1 = 97 := rfl
  simp only [decode, h97, Short]
  constructor
  · intro h
    split at h
    · cases h
    split at h
    · cases h
    rename_i hl hr
    split at h
    · simp only [Except.ok.injEq, Prod.mk.injEq, mk.injEq, Text.mk.injEq] at h
      obtain ⟨⟨rfl, rfl, rfl, rfl⟩, rfl⟩ := h
      have hlt := (buf.getD 96 0).toNat_lt
      simp only [length_drop] at hr
      have hln : ((buf.drop 97).take (buf.getD 96 0).toNat).length = (buf.getD 96 0).toNat := by
        simp only [length_take, length_drop]
        omega
      refine ⟨⟨by omega, rfl, rfl, rfl, ?_, ?_⟩, ?_⟩
      · rw [hln, UInt8.ofNat_toNat]
      · exact (take_append_drop _ _).symm
      · omega
    · cases h
  · rintro ⟨⟨hl, rfl, rfl, rfl, h96, hrs⟩, hs⟩
    have hln : (buf.getD 96 0).toNat = ep.length := by
      rw [h96, UInt8.toNat_ofNat', mod_eq_of_lt (by omega)]
    rw [if_neg (by omega)]
    simp only [hln, hrs, take_left, drop_left, hep]
    simp

end IntroPoint

lemma decodeIntroPoints_eq_ok : ∀ {n : ℕ} {buf rest : Bytes} {ips : List IntroPoint},
    decodeIntroPoints n buf = .ok (ips, rest) ↔
      ips.length = n ∧ (∀ ip ∈ ips, ip.Short) ∧ buf = ips.flatMap encode ++ rest
  | 0, buf, rest, ips => by
    simp only [decodeIntroPoints, Except.ok.injEq, Prod.mk.injEq, length_eq_zero_iff]
    constructor
    · rintro ⟨rfl, rfl⟩
      simp
    · rintro ⟨rfl, -, rfl⟩
      simp
  | n + 1, buf, rest, ips => by
    constructor
    · intro h
      rw [decodeIntroPoints] at h
      split at h
      · cases h
      rename_i ip rest' hip
      split at h
      · cases h
      rename_i ips' rest'' hi
      cases h
      obtain ⟨rfl, hs⟩ := decode_eq_ok.1 hip
      obtain ⟨rfl, hs', rfl⟩ := decodeIntroPoints_eq_ok.1 hi
      exact ⟨rfl, forall_mem_cons.2 ⟨hs, hs'⟩, by simp⟩
    · rintro ⟨hn, hs, rfl⟩
      obtain _ | ⟨ip, ips⟩ := ips
      · cases hn
      rw [forall_mem_cons] at hs
      rw [decodeIntroPoints, flatMap_cons, append_assoc, decode_eq_ok.2 ⟨rfl, hs.1⟩]
      simp [decodeIntroPoints_eq_ok.2 ⟨succ.inj hn, hs.2, rfl⟩]

namespace OnionDescriptor

def Short (d : OnionDescriptor) : Prop := ∀ ip ∈ d.introPoints, ip.Short

/-- What the constructor checks. -/
structure Sound (d : OnionDescriptor) : Prop where
  expiry : d.issuedAt < d.expiresAt
  nonempty : 0 < d.introPoints.length
  count : d.introPoints.length ≤ maxIntroPoints

lemma eq_encode_append {d : OnionDescriptor} :
    buf = d.encodeSignedPrefix ++ rest ↔ 85 ≤ buf.length ∧ buf.take 2 = magic ∧
      buf.getD 2 0 = docTypeOnionDescriptor ∧ buf.getD 3 0 = onionDescVersionV2 ∧
      (buf.drop 4).take 8 = beBytes 8 d.issuedAt.toNat ∧
      (buf.drop 12).take 8 = beBytes 8 d.expiresAt.toNat ∧
      vec 32 (buf.drop 20) = d.serviceEd25519Pk ∧ vec 32 (buf.drop 52) = d.serviceX25519Pk ∧
      buf.getD 84 0 = UInt8.ofNat d.introPoints.length ∧
      buf.drop 85 = d.introPoints.flatMap IntroPoint.encode ++ rest := by
  have h : buf = d.encodeSignedPrefix ++ rest ↔ buf.drop 0 = magic ++
      (docTypeOnionDescriptor :: onionDescVersionV2 :: (beBytes 8 d.issuedAt.toNat ++
        (beBytes 8 d.expiresAt.toNat ++ (d.serviceEd25519Pk.toList ++
          (d.serviceX25519Pk.toList ++ (UInt8.ofNat d.introPoints.length ::
            (d.introPoints.flatMap IntroPoint.encode ++ rest))))))) := by
    simp [encodeSignedPrefix]
  rw [h, drop_eq_append (n := 2) rfl, drop_eq_cons, drop_eq_cons,
    drop_eq_append (length_beBytes 8 _), drop_eq_append (length_beBytes 8 _),
    drop_eq_vec_append, drop_eq_vec_append, drop_eq_cons]
  simp only [drop_zero, length_drop]
  constructor
  · rintro ⟨h0, -, h2, -, h3, h4, h12, -, h20, -, h52, hl, h84, h85⟩
    exact ⟨by omega, h0, h2, h3, h4, h12, h20, h52, h84, h85⟩
  · rintro ⟨hl, h0, h2, h3, h4, h12, h20, h52, h84, h85⟩
    exact ⟨h0, by omega, h2, by omega, h3, h4, h12, by omega, h20, by omega, h52, by omega, h84,
      h85⟩

lemma flatMap_encode_length (ips : List IntroPoint) :
    97 * ips.length ≤ (ips.flatMap IntroPoint.encode).length := by
  induction ips with
  | nil => simp
  | cons ip ips ih =>
    simp only [flatMap_cons, length_append, length_cons, IntroPoint.encode, Vector.length_toList]
    omega

/-- `decode` accepts encodings of sound descriptors and nothing else. -/
theorem decode_eq_ok {d : OnionDescriptor} : decode buf = .ok d ↔
      d.Sound ∧ d.Short ∧ buf = d.encodeSignedPrefix ++ d.signature.toList := by
  rw [eq_encode_append]
  constructor
  · intro h
    simp only [decode] at h
    iterate 6
      split at h
      · cases h
    rename_i hl hm ht _ hv hx
    split at h
    · cases h
    rename_i hc
    split at h
    · cases h
    rename_i ips rest hi
    split at h
    · cases h
    rename_i hr
    cases h
    obtain ⟨hn, hs, hrs⟩ := decodeIntroPoints_eq_ok.1 hi
    have hr : rest.length = 64 := not_not.1 hr
    have hl : 246 ≤ buf.length := not_lt.1 hl
    refine ⟨⟨UInt64.not_le.1 hx, ?_, ?_⟩, hs, by omega, not_not.1 hm, not_not.1 ht,
      not_not.1 hv, (beBytes_eq ?_).2 rfl, (beBytes_eq ?_).2 rfl, rfl, rfl, ?_, ?_⟩
    · simp only [hn]
      omega
    · simp only [hn]
      omega
    · simp only [length_take, length_drop]
      omega
    · simp only [length_take, length_drop]
      omega
    · simp [hn, UInt8.ofNat_toNat]
    · rw [hrs, toList_vec (le_of_eq hr.symm), take_of_length_le (le_of_eq hr)]
  · rintro ⟨hs, hsh, hl, hm, ht, hv, h4, h12, h20, h52, h84, h85⟩
    have hcn : d.introPoints.length ≤ 8 := hs.count
    have hln := flatMap_encode_length d.introPoints
    have h85' := congrArg length h85
    simp only [length_drop, length_append, Vector.length_toList] at h85'
    have hp := hs.nonempty
    have hn : (buf.getD 84 0).toNat = d.introPoints.length := by
      rw [h84, UInt8.toNat_ofNat', mod_eq_of_lt (by omega)]
    have h4 := (beBytes_eq (by simp only [length_take, length_drop]; omega)).1 h4
    have h12 := (beBytes_eq (by simp only [length_take, length_drop]; omega)).1 h12
    have hi := decodeIntroPoints_eq_ok.2 ⟨rfl, hsh, h85⟩
    have hmn : ¬ buf.length < minLen := by
      simp only [minLen, introPointFixedLen, sigLen]
      omega
    simp only [decode, if_neg hmn, hm, ht, hv, h4, h12, hn, hi, ne_eq, not_true_eq_false,
      if_false, if_neg (UInt64.not_le.2 hs.expiry), h20, h52, Vector.length_toList, vec_toList]
    rw [if_neg (by decide), if_neg (by simp only [maxIntroPoints]; omega),
      if_neg (by simp [sigLen])]

variable {E : Ed25519} {issued expires issued' expires' : UInt64}
  {ed x ed' x' sk : Bytes32} {ips ips' : List IntroPoint} {d₀ d₀' d : OnionDescriptor}

lemma new_eq_ok (h : new issued expires ed x ips = .ok d₀) :
    d₀ = ⟨issued, expires, ed, x, ips, .replicate 64 0⟩ ∧ d₀.Sound := by
  simp only [new] at h
  split at h
  · cases h
  split at h
  · cases h
  rename_i hx hc
  cases h
  simp only [isEmpty_iff_length_eq_zero, not_or] at hc
  exact ⟨rfl, UInt64.not_le.1 hx, pos_of_ne_zero hc.1, not_lt.1 hc.2⟩

lemma sign_eq_ok (h : d₀.sign E sk = .ok d) : E.verifyingKey sk = d₀.serviceEd25519Pk ∧
      d = { d₀ with signature := E.sign sk d₀.encodeSignedPrefix } := by
  simp only [sign] at h
  split at h
  · cases h
  rename_i hk
  cases h
  exact ⟨not_not.1 hk, rfl⟩

lemma encode_of_sound (h : d.Sound) :
    d.encode = .ok (d.encodeSignedPrefix ++ d.signature.toList) := by
  refine if_neg ?_
  rw [isEmpty_iff_length_eq_zero, not_or]
  exact ⟨ne_of_gt h.nonempty, not_lt.2 h.count⟩

variable {sig : Bytes64}

lemma Sound.signed (h : d₀.Sound) : Sound { d₀ with signature := sig } :=
  ⟨h.expiry, h.nonempty, h.count⟩

@[simp]
lemma encodeSignedPrefix_signed :
    encodeSignedPrefix { d₀ with signature := sig } = d₀.encodeSignedPrefix := rfl

lemma decode_encode_iff (h : d.Sound) : (∃ b, d.encode = .ok b ∧ decode b = .ok d) ↔ d.Short := by
  simp [encode_of_sound, decode_eq_ok, h]

lemma verify_of_sign (lawful : E.Lawful) (h : d₀.sign E sk = .ok d) : d.verify E = .ok () := by
  obtain ⟨hk, rfl⟩ := sign_eq_ok h
  simp only [verify, encodeSignedPrefix_signed]
  simp [← hk, lawful.validKey, lawful.verify]

lemma eq_of_encodeSignedPrefix (h : d₀.Sound) (h' : d₀'.Sound) (hs : d₀.Short) (hs' : d₀'.Short)
    (hsg : d₀.signature = d₀'.signature)
    (hp : d₀.encodeSignedPrefix = d₀'.encodeSignedPrefix) : d₀ = d₀' := by
  have hd := decode_eq_ok.2 ⟨h, hs, rfl⟩
  rw [hp, hsg, decode_eq_ok.2 ⟨h', hs', rfl⟩] at hd
  exact (Except.ok.inj hd).symm

lemma encode_of_decode {b : Bytes} (h : decode b = .ok d) :
    d.encode = .ok b ∧ d.encodeSignedPrefix = b.take (b.length - 64) := by
  obtain ⟨hs, -, rfl⟩ := decode_eq_ok.1 h
  refine ⟨encode_of_sound hs, ?_⟩
  simp

/-- A signed descriptor verifies, and is read back exactly if its endpoints fit the byte of their
length. -/
theorem signed_read_iff_short (lawful : E.Lawful) :
    (∀ {issued expires ed x ips sk d₀ d}, new issued expires ed x ips = .ok d₀ →
      d₀.sign E sk = .ok d → ((∃ b, d.encode = .ok b ∧ decode b = .ok d) ∧ d.verify E = .ok () ↔
          ∀ ip ∈ ips, ip.endpoint.bytes.length ≤ 255)) ∧
    (∀ {issued expires ed x ips d₀ issued' expires' ed' x' ips' d₀'},
      new issued expires ed x ips = .ok d₀ → new issued' expires' ed' x' ips' = .ok d₀' →
      (∀ ip ∈ ips, ip.endpoint.bytes.length ≤ 255) → (∀ ip ∈ ips', ip.endpoint.bytes.length ≤ 255) →
      d₀.encodeSignedPrefix = d₀'.encodeSignedPrefix → d₀ = d₀') ∧ ∀ {b d}, decode b = .ok d →
      d.encode = .ok b ∧ d.encodeSignedPrefix = b.take (b.length - 64) := by
  refine ⟨fun hn hsg => ?_, fun hn hn' hs hs' hp => ?_, encode_of_decode⟩
  · obtain ⟨h₀, sound⟩ := new_eq_ok hn
    have hv := verify_of_sign lawful hsg
    obtain ⟨-, rfl⟩ := sign_eq_ok hsg
    rw [and_iff_left hv, decode_encode_iff sound.signed, h₀]
    rfl
  · obtain ⟨rfl, sound⟩ := new_eq_ok hn
    obtain ⟨rfl, sound'⟩ := new_eq_ok hn'
    exact eq_of_encodeSignedPrefix sound sound' hs hs' rfl hp

def echoScheme : Ed25519 where
  verifyingKey sk := sk
  sign _ msg := vec 64 msg.reverse
  validKey _ := true
  verifyStrict _ msg sig := sig == vec 64 msg.reverse

def letterPoint (endpoint : Text) : IntroPoint :=
  ⟨.replicate 32 97, .replicate 32 97, .replicate 32 97, endpoint⟩

def shortEndpoint : Text := ⟨ascii "198.51.100.7:443", by decide +kernel⟩

def longEndpoint : Text := ⟨.replicate 256 97, by decide +kernel⟩

def hostDescriptor : OnionDescriptor :=
  ⟨1, 2, .replicate 32 5, .replicate 32 6, [letterPoint shortEndpoint], .replicate 64 0⟩

theorem signed_read_iff_short_host :
    ∃ d, new 1 2 (.replicate 32 5) (.replicate 32 6) [letterPoint shortEndpoint] =
        .ok hostDescriptor ∧ hostDescriptor.sign echoScheme (.replicate 32 5) = .ok d ∧
      (∃ b, d.encode = .ok b ∧ decode b = .ok d) ∧ d.verify echoScheme = .ok () := by
  have lawful : echoScheme.Lawful := ⟨fun _ => rfl, fun _ _ => beq_self_eq_true _⟩
  have hn : new 1 2 (.replicate 32 5) (.replicate 32 6) [letterPoint shortEndpoint] =
      .ok hostDescriptor := by decide +kernel
  have hs : hostDescriptor.sign echoScheme (.replicate 32 5) = .ok _ :=
    if_neg (by decide +kernel)
  exact ⟨_, hn, hs, ((signed_read_iff_short lawful).1 hn hs).2 (by decide +kernel)⟩

def shortPoints : List IntroPoint :=
  [letterPoint ⟨[], by decide +kernel⟩, letterPoint ⟨.replicate 127 97, by decide +kernel⟩,
    letterPoint ⟨.replicate 31 97 ++ [0] ++ .replicate 96 97 ++ [0], by decide +kernel⟩]

def longPoints : List IntroPoint :=
  [letterPoint ⟨.replicate 96 97 ++ [127] ++ .replicate 159 97, by decide +kernel⟩,
    { letterPoint ⟨[], by decide +kernel⟩ with introAuthKey := vec 32 (129 :: .replicate 31 97) },
    letterPoint ⟨[], by decide +kernel⟩]

/-- An endpoint of 256 letters is written with length 0; two descriptors sign the same bytes. -/
theorem long_endpoint_unreadable : (do
      let d₀ ← new 1 2 (.replicate 32 5) (.replicate 32 6) [letterPoint longEndpoint]
      let d ← d₀.sign echoScheme (.replicate 32 5)
      d.verify echoScheme
      let b ← d.encode
      decode b) = .error (.wire "length mismatch") ∧
    shortPoints ≠ longPoints ∧
    ∃ d₀ d₀', new 1 2 (.replicate 32 5) (.replicate 32 6) shortPoints = .ok d₀ ∧
      new 1 2 (.replicate 32 5) (.replicate 32 6) longPoints = .ok d₀' ∧
      d₀.encodeSignedPrefix = d₀'.encodeSignedPrefix := by
  refine ⟨by decide +kernel, by decide +kernel, _, _, rfl, rfl, by decide +kernel⟩

end OnionDescriptor

/-! ## Resolution -/

namespace Lookup

variable {ε : Type*} {q : Lookup} {S : SealedSuite} {blob : Bytes} {d : OnionDescriptor}
  {channels channels' : List (Vector UInt8 20 → Except ε (List Bytes))}

/-- The blob unseals, and what it holds decodes, carries the key, verifies and is valid. -/
def Genuine (q : Lookup) (S : SealedSuite) (blob : Bytes) (d : OnionDescriptor) : Prop :=
  (∃ b, q.unsealDescriptor S blob = .ok b ∧ OnionDescriptor.decode b = .ok d) ∧
    d.serviceEd25519Pk = q.servicePk ∧ d.verify S.toEd25519 = .ok () ∧
    d.issuedAt ≤ q.now ∧ q.now < d.expiresAt

lemma candidate_eq_some : q.candidate S blob = some d ↔ q.Genuine S blob d := by
  unfold candidate Genuine
  rcases q.unsealDescriptor S blob with _ | b
  · simp
  rcases h : OnionDescriptor.decode b with _ | d'
  · simp [h]
  · simp only [h, Except.ok.injEq, exists_eq_left', Option.ite_none_left_eq_some, ne_eq, not_not,
      Bool.not_eq_true', Bool.not_eq_false, OnionDescriptor.isValidAt, Bool.and_eq_true,
      decide_eq_true_eq, Option.some.injEq]
    constructor
    · rintro ⟨hk, hv, ht, rfl⟩
      exact ⟨rfl, hk, hv, ht⟩
    · rintro ⟨rfl, hk, hv, ht⟩
      exact ⟨hk, hv, ht, rfl⟩

/-- A channel has a genuine descriptor among the first blobs of its answer. -/
def Offered (q : Lookup) (S : SealedSuite)
    (channels : List (Vector UInt8 20 → Except ε (List Bytes))) (d : OnionDescriptor) : Prop :=
  ∃ fetch ∈ channels, ∃ blobs, fetch (q.onionDescriptorInfoHash S) = .ok blobs ∧
    ∃ blob ∈ blobs.take maxBlobsPerFetch, q.Genuine S blob d

lemma Offered.mono (h : channels ⊆ channels') : q.Offered S channels d → q.Offered S channels' d
  | ⟨fetch, hf, hd⟩ => ⟨fetch, h hf, hd⟩

def candidates (q : Lookup) (S : SealedSuite)
    (channels : List (Vector UInt8 20 → Except ε (List Bytes))) : List OnionDescriptor :=
  (channels.flatMap fun fetch => match fetch (q.onionDescriptorInfoHash S) with
    | .ok blobs => blobs.take maxBlobsPerFetch
    | .error _ => []).filterMap (q.candidate S)

lemma mem_candidates : d ∈ q.candidates S channels ↔ q.Offered S channels d := by
  simp only [candidates, mem_filterMap, mem_flatMap, candidate_eq_some, Offered]
  constructor
  · rintro ⟨blob, ⟨fetch, hf, hb⟩, hd⟩
    split at hb
    next blobs h => exact ⟨fetch, hf, blobs, h, blob, hb, hd⟩
    next => simp at hb
  · rintro ⟨fetch, hf, blobs, h, blob, hb, hd⟩
    exact ⟨blob, ⟨fetch, hf, by simpa only [h]⟩, hd⟩

lemma resolveDescriptor_eq : q.resolveDescriptor S channels =
    match (q.candidates S channels).argmax (·.issuedAt.toNat) with
    | some d => .ok d
    | none => .error (.notFound channels.length) := by
  rw [candidates, argmax, foldl_filterMap, foldl_flatMap, resolveDescriptor]
  congr 2
  funext best fetch
  rcases fetch _ with _ | blobs
  · rfl
  · refine congrArg (foldl · best _) (funext₂ fun best blob => ?_)
    unfold considerBlob
    cases q.candidate S blob <;> cases best <;> rfl

lemma resolveDescriptor_cases (q : Lookup) (S : SealedSuite)
    (channels : List (Vector UInt8 20 → Except ε (List Bytes))) :
    (∃ d, q.resolveDescriptor S channels = .ok d ∧ q.Offered S channels d ∧
      ∀ d', q.Offered S channels d' → d'.issuedAt ≤ d.issuedAt) ∨
    q.resolveDescriptor S channels = .error (.notFound channels.length) ∧
      ∀ d, ¬ q.Offered S channels d := by
  simp only [resolveDescriptor_eq, ← mem_candidates]
  rcases h : (q.candidates S channels).argmax (·.issuedAt.toNat) with _ | d
  · simp [argmax_eq_none.1 h]
  · refine .inl ⟨d, by rw [h], argmax_mem h, fun d' hd' => UInt64.le_iff_toNat_le.2 ?_⟩
    exact le_of_mem_argmax (f := fun d : OnionDescriptor => d.issuedAt.toNat) hd' h

/-- What is resolved is genuine and the freshest, in whatever order the channels are asked. -/
theorem resolves_freshest (q : Lookup) (S : SealedSuite)
    (channels channels' : List (Vector UInt8 20 → Except ε (List Bytes))) :
    ((∃ d, q.resolveDescriptor S channels = .ok d) ↔ ∃ d, q.Offered S channels d) ∧
    (∀ d, q.resolveDescriptor S channels = .ok d → q.Offered S channels d ∧
      ∀ d', q.Offered S channels d' → d'.issuedAt ≤ d.issuedAt) ∧
    (channels ~ channels' → q.resolveDescriptor S channels' = q.resolveDescriptor S channels ∨
      ∃ d d', q.resolveDescriptor S channels = .ok d ∧ q.resolveDescriptor S channels' = .ok d' ∧
        d'.issuedAt = d.issuedAt) ∧
    (channels <+ channels' → ∀ d, q.resolveDescriptor S channels = .ok d →
      ∃ d', q.resolveDescriptor S channels' = .ok d' ∧ d.issuedAt ≤ d'.issuedAt) := by
  rcases q.resolveDescriptor_cases S channels with ⟨d, hd, ho, hm⟩ | ⟨hd, ho⟩ <;>
    simp only [hd, Except.ok.injEq, reduceCtorEq]
  · have more (h : channels ⊆ channels') :=
      (q.resolveDescriptor_cases S channels').resolve_right fun hn => hn.2 d (ho.mono h)
    refine ⟨⟨fun _ => ⟨d, ho⟩, fun _ => ⟨d, rfl⟩⟩, ?_, fun h => .inr ?_, fun h => ?_⟩
    · rintro _ rfl
      exact ⟨ho, hm⟩
    · obtain ⟨d', hd', ho', hm'⟩ := more h.subset
      exact ⟨d, d', rfl, hd', UInt64.le_antisymm (hm _ (ho'.mono h.symm.subset))
        (hm' _ (ho.mono h.subset))⟩
    · rintro _ rfl
      obtain ⟨d', hd', -, hm'⟩ := more h.subset
      exact ⟨d', hd', hm' _ (ho.mono h.subset)⟩
  · refine ⟨by simp [ho], by simp, fun h => .inl ?_, by simp⟩
    rcases q.resolveDescriptor_cases S channels' with ⟨d', -, ho', -⟩ | ⟨hd', -⟩
    · exact absurd (ho'.mono h.symm.subset) (ho d')
    · rw [hd', h.length_eq]

end Lookup

end Mirage.Onion
