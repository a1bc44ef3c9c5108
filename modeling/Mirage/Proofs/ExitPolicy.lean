import Mirage.Bridge.Destinations

/-!
# What an exit dials

`check` alone covers the private ranges (`isPrivate_of_privateSpace`). Of the addresses of the host
itself, some are left to the switch for private networks (`check_localHost`).
-/

namespace Mirage.Socks5

open Words Bridge AllowlistPolicy
open List hiding Vector

def segment (a b : UInt8) : UInt16 := a.toUInt16 * 256 + b.toUInt16

/-- The octet number `i` of an address. -/
def octet (o : Vector UInt8 4) (i : ℕ) : UInt8 := o.toList.getD i 0

def mapped (o : Vector UInt8 4) : Vector UInt16 8 :=
  #v[0, 0, 0, 0, 0, 0xffff, segment (octet o 0) (octet o 1), segment (octet o 2) (octet o 3)]

def compatible (o : Vector UInt8 4) : Vector UInt16 8 :=
  #v[0, 0, 0, 0, 0, 0, segment (octet o 0) (octet o 1), segment (octet o 2) (octet o 3)]

/-- The three ways to write an address of IPv4. -/
def Denotes (ip : IpAddr) (o : Vector UInt8 4) : Prop :=
  ip = .v4 o ∨ ip = .v6 (mapped o) ∨ ip = .v6 (compatible o)

/-- The addresses whose first bits are those of the block, as many as its length says. -/
def InBlock (o : Vector UInt8 4) (block : Vector UInt8 4 × ℕ) : Prop :=
  beNat o.toList / 2 ^ (32 - block.2) = beNat block.1.toList / 2 ^ (32 - block.2)

/-- The first segment starts with the bits of the block. -/
def InBlock6 (s : Vector UInt16 8) (block : ℕ × ℕ) : Prop :=
  (s.toList.getD 0 0).toNat / 2 ^ (16 - block.2) = block.1 / 2 ^ (16 - block.2)

def privateBlocks : List (Vector UInt8 4 × ℕ) :=
  [(#v[10, 0, 0, 0], 8), (#v[172, 16, 0, 0], 12), (#v[192, 168, 0, 0], 16),
    (#v[169, 254, 0, 0], 16), (#v[100, 64, 0, 0], 10), (#v[224, 0, 0, 0], 4),
    (.replicate 4 255, 32), (.replicate 4 0, 32)]

def privateBlocks6 : List (ℕ × ℕ) := [(0xfc00, 7), (0xfe80, 10), (0xff00, 8)]

/-- Addresses of private networks, and those that are no host's. -/
def PrivateSpace (ip : IpAddr) : Prop :=
  (∃ o, Denotes ip o ∧ ∃ block ∈ privateBlocks, InBlock o block) ∨
    ∃ s, ip = .v6 s ∧ ((∃ block ∈ privateBlocks6, InBlock6 s block) ∨ s = .replicate 8 0)

/-- Addresses that lead back to the host: loopback, and the unspecified addresses. -/
def ReachesLocalHost (ip : IpAddr) : Prop :=
  (∃ o, Denotes ip o ∧ (InBlock o (#v[127, 0, 0, 0], 8) ∨ o = .replicate 4 0)) ∨
    ∃ s, ip = .v6 s ∧ (s.toList = [0, 0, 0, 0, 0, 0, 0, 1] ∨ s = .replicate 8 0)

/-- Addresses of the host that `check` does not take for loopback. -/
def Unguarded (ip : IpAddr) : Prop :=
  (∃ o, Denotes ip o ∧ o = .replicate 4 0) ∨
    ∃ o, InBlock o (#v[127, 0, 0, 0], 8) ∧ ip = .v6 (compatible o)

lemma eq_octets (o : Vector UInt8 4) : ∃ a b c d, o = #v[a, b, c, d] := by
  refine ⟨o[0], o[1], o[2], o[3], ?_⟩
  ext i hi
  obtain rfl | rfl | rfl | rfl : i = 0 ∨ i = 1 ∨ i = 2 ∨ i = 3 := by omega
  all_goals rfl

variable {o : Vector UInt8 4} {ip : IpAddr} {a : SocketAddr}

lemma beNat_injective {o' : Vector UInt8 4} (h : beNat o.toList = beNat o'.toList) : o = o' := by
  have hb : o.toList = o'.toList := by
    rw [← beBytes_beNat o.toList, ← beBytes_beNat o'.toList, h, Vector.length_toList,
      Vector.length_toList]
  rw [← vec_toList o, hb, vec_toList]

lemma beNat_quad (a b c d : UInt8) :
    beNat [a, b, c, d] = ((a.toNat * 256 + b.toNat) * 256 + c.toNat) * 256 + d.toNat := by
  simp [beNat]

lemma segment_high (a b : UInt8) : (segment a b >>> 8).toUInt8 = a := by
  have := a.toNat_lt
  have := b.toNat_lt
  rw [← UInt8.toNat_inj]
  simp [segment, Nat.shiftRight_eq_div_pow]
  omega

lemma segment_low (a b : UInt8) : (segment a b).toUInt8 = b := by
  have := a.toNat_lt
  have := b.toNat_lt
  rw [← UInt8.toNat_inj]
  simp [segment]

lemma canonicaliseIp_mapped : canonicaliseIp (.v6 (mapped o)) = .v4 o := by
  have h : toIpv4Mapped (mapped o) = some o := by
    obtain ⟨a, b, c, d, rfl⟩ := eq_octets o
    rw [toIpv4Mapped, if_pos (by simp [mapped])]
    simp [mapped, octet, segment_high, segment_low]
  simp [canonicaliseIp, h]

variable {s : Vector UInt16 8}

lemma canonicaliseIp_of_none (h : toIpv4Mapped s = none) : canonicaliseIp (.v6 s) = .v6 s := by
  simp [canonicaliseIp, h]

lemma canonicaliseIp_compatible : canonicaliseIp (.v6 (compatible o)) = .v6 (compatible o) :=
  canonicaliseIp_of_none (by simp [toIpv4Mapped, compatible])

lemma isPrivate_compatible : isPrivate (.v6 (compatible o)) = true := by
  simp [isPrivate, compatible]

lemma and_eq_of_range {x net mask : UInt16} {n : ℕ}
    (hm : ∀ k < n, (net.toNat + k) &&& mask.toNat = net.toNat)
    (hx : net.toNat ≤ x.toNat) (hlt : x.toNat < net.toNat + n) : x &&& mask = net := by
  rw [← UInt16.toNat_inj, UInt16.toNat_and]
  have := hm (x.toNat - net.toNat) (by omega)
  rwa [Nat.add_sub_cancel' hx] at this

lemma isPrivate_of_inBlock6 {block : ℕ × ℕ} (hb : block ∈ privateBlocks6)
    (h : InBlock6 s block) : toIpv4Mapped s = none ∧ isPrivate (.v6 s) = true := by
  have h0 : s.toList.getD 0 0 = s[0] := by simp
  have hne : 0xfc00 ≤ s[0].toNat → toIpv4Mapped s = none := by
    refine fun hle => if_neg fun h0 => ?_
    rw [h0.1] at hle
    revert hle
    decide
  simp only [privateBlocks6, mem_cons, not_mem_nil, or_false] at hb
  simp only [isPrivate, Ipv6.isMulticast, Bool.or_eq_true, decide_eq_true_eq]
  rcases hb with rfl | rfl | rfl <;> simp only [InBlock6, h0] at h
  · have hu : s[0] &&& 0xfe00 = 0xfc00 :=
      and_eq_of_range (n := 512) (by decide +kernel) (by simp; omega) (by simp; omega)
    exact ⟨hne (by omega), by simp [hu]⟩
  · have hl : s[0] &&& 0xffc0 = 0xfe80 :=
      and_eq_of_range (n := 64) (by decide +kernel) (by simp; omega) (by simp; omega)
    exact ⟨hne (by omega), by simp [hl]⟩
  · have hm : s[0] &&& 0xff00 = 0xff00 :=
      and_eq_of_range (n := 256) (by decide +kernel) (by simp; omega) (by simp; omega)
    exact ⟨hne (by omega), by simp [hm]⟩

lemma isPrivate_of_inBlock {block : Vector UInt8 4 × ℕ} (hb : block ∈ privateBlocks)
    (h : InBlock o block) : isPrivate (.v4 o) = true := by
  have hinj {o' : Vector UInt8 4} (h : InBlock o (o', 32)) : o = o' := by
    simp only [InBlock, Nat.sub_self, pow_zero, Nat.div_one] at h
    exact beNat_injective h
  obtain ⟨a, b, c, d, rfl⟩ := eq_octets o
  have hb1 := b.toNat_lt
  have hc1 := c.toNat_lt
  have hd1 := d.toNat_lt
  have hc : ∀ k < 128, 64 ≤ k → k &&& 0xc0 = 0x40 := by decide +kernel
  have hv := beNat_quad a b c d
  simp only [privateBlocks, mem_cons, not_mem_nil, or_false] at hb
  simp only [isPrivate, Ipv4.isPrivate, Ipv4.isLinkLocal, Ipv4.isBroadcast, Ipv4.isMulticast,
    Ipv4.isUnspecified, Vector.getElem_mk, getElem_toArray, getElem_cons_zero, getElem_cons_succ,
    Bool.or_eq_true, Bool.and_eq_true, decide_eq_true_eq, UInt8.le_iff_toNat_le,
    ← UInt8.toNat_inj, UInt8.toNat_and, ge_iff_le, UInt8.reduceToNat]
  rcases hb with rfl | rfl | rfl | rfl | rfl | rfl | rfl | rfl
  · have h : beNat [a, b, c, d] / 2 ^ 24 = 10 := h
    omega
  · have h : beNat [a, b, c, d] / 2 ^ 20 = 2753 := h
    omega
  · have h : beNat [a, b, c, d] / 2 ^ 16 = 49320 := h
    omega
  · have h : beNat [a, b, c, d] / 2 ^ 16 = 43518 := h
    omega
  · have h : beNat [a, b, c, d] / 2 ^ 22 = 401 := h
    exact .inr ⟨by omega, hc _ (by omega) (by omega)⟩
  · have h : beNat [a, b, c, d] / 2 ^ 28 = 14 := h
    omega
  · have hr : (.replicate 4 255 : Vector UInt8 4) = #v[255, 255, 255, 255] := rfl
    rw [hinj h, hr]
    simp
  · have hr : (.replicate 4 0 : Vector UInt8 4) = #v[0, 0, 0, 0] := rfl
    rw [hinj h, hr]
    simp

lemma compatible_zero : compatible (.replicate 4 0) = .replicate 8 0 := by
  decide

lemma isPrivate_of_privateSpace (h : PrivateSpace ip) : isPrivate (canonicaliseIp ip) = true := by
  rcases h with ⟨o, hip, block, hb, h⟩ | ⟨s, rfl, ⟨block, hb, h⟩ | rfl⟩
  · rcases hip with rfl | rfl | rfl
    · exact isPrivate_of_inBlock hb h
    · rw [canonicaliseIp_mapped]
      exact isPrivate_of_inBlock hb h
    · exact isPrivate_compatible
  · obtain ⟨hne, hp⟩ := isPrivate_of_inBlock6 hb h
    rwa [canonicaliseIp_of_none hne]
  · rw [← compatible_zero, canonicaliseIp_compatible]
    exact isPrivate_compatible

lemma inBlock_loopback_iff : InBlock o (#v[127, 0, 0, 0], 8) ↔ Ipv4.isLoopback o = true := by
  obtain ⟨a, b, c, d, rfl⟩ := eq_octets o
  have hb := b.toNat_lt
  have hc := c.toNat_lt
  have hd := d.toNat_lt
  have hv := beNat_quad a b c d
  rw [Ipv4.isLoopback, decide_eq_true_eq, ← UInt8.toNat_inj]
  change beNat [a, b, c, d] / 2 ^ 24 = 127 ↔ a.toNat = 127
  omega

lemma loopback_or_unguarded (h : ReachesLocalHost ip) :
    ipIsLoopbackDest (canonicaliseIp ip) = true ∨ Unguarded ip := by
  rcases h with ⟨o, hip, h | h⟩ | ⟨s, rfl, hs | rfl⟩
  · have h127 : ipIsLoopbackDest (.v4 o) = true := inBlock_loopback_iff.1 h
    rcases hip with rfl | rfl | rfl
    · exact .inl h127
    · rw [canonicaliseIp_mapped]
      exact .inl h127
    · exact .inr (.inr ⟨o, h, rfl⟩)
  · exact .inr (.inl ⟨o, hip, h⟩)
  · have hs : s = #v[0, 0, 0, 0, 0, 0, 0, 1] := Vector.toList_inj.1 hs
    exact .inl (by subst hs; decide)
  · exact .inr (.inl ⟨_, .inr (.inr (by rw [compatible_zero])), rfl⟩)

lemma Unguarded.reachesLocalHost (h : Unguarded ip) : ReachesLocalHost ip := by
  rcases h with ⟨o, hip, h⟩ | ⟨o, h, rfl⟩
  · exact .inl ⟨o, hip, .inr h⟩
  · exact .inl ⟨o, .inr (.inr rfl), .inl h⟩

lemma Unguarded.not_loopback (h : Unguarded ip) : ipIsLoopbackDest (canonicaliseIp ip) = false := by
  rcases h with ⟨o, hip, rfl⟩ | ⟨o, h, rfl⟩
  · rcases hip with rfl | rfl | rfl
    · decide
    · decide
    · decide
  -- the last but one segment starts with 127
  have h127 : o[0] = 127 := of_decide_eq_true (inBlock_loopback_iff.1 h)
  refine decide_eq_false fun heq => ?_
  have h6 : segment (octet o 0) (octet o 1) = 0 := congrArg (fun s => s[6]) heq
  have h0 := segment_high (octet o 0) (octet o 1)
  rw [h6, octet, show o.toList.getD 0 0 = o[0] by simp, h127] at h0
  revert h0
  decide

lemma Unguarded.isPrivate (h : Unguarded ip) : isPrivate (canonicaliseIp ip) = true := by
  rcases h with ⟨o, hip, rfl⟩ | ⟨o, -, rfl⟩
  · rcases hip with rfl | rfl | rfl
    · decide
    · decide
    · exact isPrivate_compatible
  · exact isPrivate_compatible

namespace AllowlistPolicy

variable {policy : AllowlistPolicy}

def AllowsPort (policy : AllowlistPolicy) (port : UInt16) : Prop :=
  ∀ ports, policy.allowedPorts = some ports → port ∈ ports

lemma check_isOk : (policy.check a).isOk = true ↔
    ¬ (policy.denyLoopback = true ∧ ipIsLoopbackDest (canonicaliseIp a.ip) = true) ∧
      ¬ (policy.denyPrivateNetworks = true ∧ isPrivate (canonicaliseIp a.ip) = true) ∧
      policy.AllowsPort a.port := by
  have hp : policy.AllowsPort a.port ↔
      ¬ (policy.allowedPorts.any fun ports => !ports.contains a.port) = true := by
    cases h : policy.allowedPorts <;> simp [AllowsPort, h]
  simp only [check, ← Bool.and_eq_true, hp]
  split_ifs with h1 h2 h3
  · exact iff_of_false Bool.false_ne_true fun h => h.1 h1
  · exact iff_of_false Bool.false_ne_true fun h => h.2.1 h2
  · exact iff_of_false Bool.false_ne_true fun h => h.2.2 h3
  · exact iff_of_true rfl ⟨h1, h2, h3⟩

lemma checkAllFrom_eq_ok : ∀ {any : Bool} {addrs : List SocketAddr},
    policy.checkAllFrom any addrs = .ok () ↔
      (any = true ∨ addrs ≠ []) ∧ ∀ a ∈ addrs, (policy.check a).isOk = true
  | any, [] => by cases any <;> simp [checkAllFrom]
  | any, a :: addrs => by
    rw [checkAllFrom]
    cases h : policy.check a with
    | error reason => simp [h, Except.isOk, Except.toBool]
    | ok u => simp [checkAllFrom_eq_ok, h, Except.isOk, Except.toBool]

/-- Either `check_all` accepts the addresses, or `check` accepts none of them. -/
def Unmixed (policy : AllowlistPolicy) (addrs : List SocketAddr) : Prop :=
  policy.checkAll addrs = .ok () ∨ ∀ a ∈ addrs, (policy.check a).isOk = false

lemma unmixed_singleton : policy.Unmixed [a] := by
  rw [Unmixed, checkAll, checkAllFrom_eq_ok]
  cases (policy.check a).isOk <;> simp

end AllowlistPolicy

lemma dialEach_subset : ∀ {outcomes : ℕ → Option ErrorKind} {kind : ErrorKind}
    {addrs : List SocketAddr}, (dialEach outcomes kind addrs).1 ⊆ addrs
  | _, _, [] => nil_subset _
  | outcomes, _, a :: addrs => by
    rw [dialEach]
    split
    · exact cons_subset_cons a (nil_subset _)
    · exact cons_subset_cons a dialEach_subset

lemma dialEach_unanswered {outcomes : ℕ → Option ErrorKind} (h : ∀ i, outcomes i ≠ none) :
    ∀ {kind : ErrorKind} {addrs : List SocketAddr}, (dialEach outcomes kind addrs).1 = addrs
  | _, [] => rfl
  | _, a :: addrs => by
    rw [dialEach]
    split
    · exact absurd ‹_› (h 0)
    · simp only [dialEach_unanswered fun i => h (i + 1)]

section

variable {policy : AllowlistPolicy} {target : ConnectTarget} {lookup : Option (List IpAddr)}
  {resolved : List SocketAddr} {outcomes : ℕ → Option ErrorKind}

lemma connectTarget_dialled (h : resolve lookup target = .ok resolved) :
    (connectTarget lookup outcomes target policy).1 =
      (dialEach outcomes .other (resolved.filter fun a => (policy.check a).isOk)).1 := by
  simp only [connectTarget, h]
  split_ifs with hr ha
  · rw [isEmpty_iff.1 hr]
    rfl
  · rw [isEmpty_iff.1 ha]
    rfl
  · rfl

lemma connectTarget_error {rep : UInt8} (h : resolve lookup target = .error rep) :
    (connectTarget lookup outcomes target policy).1 = [] := by
  simp [connectTarget, h]

lemma check_of_dialled (h : resolve lookup target = .ok resolved)
    (ha : a ∈ (connectTarget lookup outcomes target policy).1) :
    a ∈ resolved ∧ (policy.check a).isOk = true := by
  rw [connectTarget_dialled h] at ha
  exact mem_filter.1 (dialEach_subset ha)

lemma port_of_resolved (h : resolve lookup target = .ok resolved) (ha : a ∈ resolved) :
    a.port = target.port := by
  cases target with
  | ipv4 o p | ipv6 s p =>
    cases h
    rw [mem_singleton.1 ha]
    rfl
  | domain name p =>
    simp only [resolve] at h
    split at h
    · cases h
    split at h
    · cases h
    cases h
    obtain ⟨ip, -, rfl⟩ := mem_map.1 ha
    rfl

/-- What the policy promises of the addresses that are dialled. -/
structure Guarded (policy : AllowlistPolicy) (target : ConnectTarget)
    (lookup : Option (List IpAddr)) (dialled : List SocketAddr) : Prop where
  loopback : policy.denyLoopback = true → ∀ a ∈ dialled, ¬ ReachesLocalHost a.ip
  privateNetworks : policy.denyPrivateNetworks = true → ∀ a ∈ dialled, ¬ PrivateSpace a.ip
  resolution : ∀ name port, target = .domain name port → ∀ resolved,
    resolve lookup target = .ok resolved → (∃ a ∈ resolved, policy.check a ≠ .ok ()) → dialled = []

lemma isOk_eq_true : (policy.check a).isOk = true ↔ policy.check a = .ok () := by
  cases policy.check a <;> simp [Except.isOk, Except.toBool]

/-- What the addresses of a target must not be for the policy to hold. -/
def Sheltered (policy : AllowlistPolicy) (port : UInt16) (resolved : List SocketAddr) : Prop :=
  policy.denyLoopback = true → policy.denyPrivateNetworks = false → policy.AllowsPort port →
    ∀ a ∈ resolved, ¬ Unguarded a.ip

lemma guarded_of_sheltered (h : resolve lookup target = .ok resolved)
    (hs : Sheltered policy target.port resolved) (hm : policy.Unmixed resolved) :
    Guarded policy target lookup (connectTarget lookup outcomes target policy).1 := by
  refine ⟨fun hl a ha hr => ?_, fun hp a ha hr => ?_, fun _ _ _ resolved' hrs ⟨a, ha, hc⟩ => ?_⟩
  · obtain ⟨hmm, hok⟩ := check_of_dialled h ha
    obtain ⟨hnl, hnp, hpr⟩ := check_isOk.1 hok
    rcases loopback_or_unguarded hr with hlo | hu
    · exact hnl ⟨hl, hlo⟩
    have hpv : policy.denyPrivateNetworks = false :=
      Bool.eq_false_iff.2 fun hp => hnp ⟨hp, hu.isPrivate⟩
    rw [port_of_resolved h hmm] at hpr
    exact hs hl hpv hpr a hmm hu
  · obtain ⟨-, hok⟩ := check_of_dialled h ha
    exact (check_isOk.1 hok).2.1 ⟨hp, isPrivate_of_privateSpace hr⟩
  · rw [h] at hrs
    cases hrs
    rcases hm with hal | hn
    · exact absurd (isOk_eq_true.1 ((checkAllFrom_eq_ok.1 hal).2 a ha)) hc
    refine eq_nil_iff_forall_not_mem.2 fun b hb => ?_
    obtain ⟨hmm, hok⟩ := check_of_dialled h hb
    rw [hn b hmm] at hok
    exact Bool.false_ne_true hok

/-- Every address of an answer can be the one that is dialled. -/
theorem sheltered_of_guarded (h : resolve lookup target = .ok resolved) (hg : ∀ outcomes,
      Guarded policy target lookup (connectTarget lookup outcomes target policy).1) :
    Sheltered policy target.port resolved ∧ policy.Unmixed resolved := by
  have hg := hg fun _ => some .other
  have hd : (connectTarget lookup (fun _ => some .other) target policy).1 =
      resolved.filter fun a => (policy.check a).isOk := by
    rw [connectTarget_dialled h, dialEach_unanswered (by simp)]
  rw [hd] at hg
  refine ⟨fun hl hp hpr a ha hu => ?_, ?_⟩
  · have hok : (policy.check a).isOk = true := by
      rw [check_isOk, hu.not_loopback, hp, port_of_resolved h ha]
      exact ⟨by simp, by simp, hpr⟩
    exact hg.loopback hl a (mem_filter.2 ⟨ha, hok⟩) hu.reachesLocalHost
  cases ht : target with
  | ipv4 o p | ipv6 s p =>
    rw [ht] at h
    cases h
    exact unmixed_singleton
  | domain name p =>
    by_cases hex : ∃ a ∈ resolved, policy.check a ≠ .ok ()
    · have hn := hg.resolution name p ht resolved h hex
      refine .inr fun a ha => ?_
      simpa using filter_eq_nil_iff.1 hn a ha
    · push Not at hex
      rcases resolved with _ | ⟨a, addrs⟩
      · exact .inr (by simp)
      · refine .inl (checkAllFrom_eq_ok.2 ⟨.inr (by simp), fun b hb => ?_⟩)
        exact isOk_eq_true.2 (hex b hb)

/-- The policy holds exactly if no address of the host is left to a switch that is off, nor an
answer mixed. -/
theorem exit_policy_holds_iff (policy : AllowlistPolicy) (target : ConnectTarget)
    (lookup : Option (List IpAddr)) :
    (∀ outcomes, Guarded policy target lookup (connectTarget lookup outcomes target policy).1) ↔
      ∀ resolved, resolve lookup target = .ok resolved →
        Sheltered policy target.port resolved ∧ policy.Unmixed resolved := by
  refine ⟨fun hg resolved h => sheltered_of_guarded h hg, fun hs outcomes => ?_⟩
  cases h : resolve lookup target with
  | error rep =>
    rw [connectTarget_error h]
    exact ⟨by simp, by simp, fun _ _ _ _ _ _ => rfl⟩
  | ok resolved => exact guarded_of_sheltered h (hs resolved h).1 (hs resolved h).2

/-- `0.0.0.0` and `::127.0.0.1` pass `deny_loopback`, and half of a mixed answer is dialled. -/
theorem exit_policy_bypassed :
    (∃ a ∈ (connectTarget none (fun _ => none) (.ipv4 #v[0, 0, 0, 0] 80) ⟨true, false, none⟩).1,
      ReachesLocalHost a.ip) ∧
    (∃ a ∈ (connectTarget none (fun _ => none) (.ipv6 (compatible #v[127, 0, 0, 1]) 80)
        ⟨true, false, none⟩).1, ReachesLocalHost a.ip) ∧
    AllowlistPolicy.safeDefaults.check ⟨.v4 #v[10, 0, 0, 1], 80⟩ = .error "private-network" ∧
    (connectTarget (some [.v4 #v[10, 0, 0, 1], .v4 #v[8, 8, 8, 8]]) (fun _ => none)
      (.domain (ascii "rebind.example") 80) .safeDefaults).1 = [⟨.v4 #v[8, 8, 8, 8], 80⟩] := by
  refine ⟨⟨⟨.v4 #v[0, 0, 0, 0], 80⟩, by decide +kernel, ?_⟩,
    ⟨⟨.v6 (compatible #v[127, 0, 0, 1]), 80⟩, by decide +kernel, ?_⟩, by decide +kernel,
    by decide +kernel⟩
  · exact .inl ⟨_, .inl rfl, .inr rfl⟩
  · exact .inl ⟨_, .inr (.inr rfl), .inl (inBlock_loopback_iff.2 rfl)⟩

end

end Mirage.Socks5
