import Mirage.Lib.Runs
import Mirage.Circuit.Rendezvous

/-!
# Roles and meetings

What a call can do to the tables is said once (`Turn`). Roles and tables agree (`Agrees`), and every
join follows the parking of its cookie (`Honest`).
-/

namespace Mirage.Circuits.RendezvousState

open Words Maps AList
open List hiding Vector

variable {S : Ed25519} {rv rv' : RendezvousState} {x y circ : CircuitRef} {now : Instant}
  {call : RendezvousCall} {ttl : ℕ} {p : Parked} {m : AList fun _ : Bytes32 => Parked}
  {k : Bytes32}

inductive Meeting
  | parked (client : CircuitRef) (cookie : Bytes32) (now : Instant)
  | joined (client service : CircuitRef) (cookie : Bytes32) (now : Instant)

def Meeting.client : Meeting → CircuitRef
  | .parked client _ _ => client
  | .joined client _ _ _ => client

def meeting (rv : RendezvousState) : RendezvousCall → Option Meeting
  | .establishRendezvous circ cookieBytes now =>
    match (rv.establishRendezvous circ cookieBytes now).1 with
    | .ok _ => some (.parked circ (vec 32 cookieBytes) now)
    | .error _ => none
  | .rendezvous circ body now =>
    match RendezvousBody.decode body, (rv.rendezvous circ body now).1 with
    | .ok parsed, .ok (.join client service _) => some (.joined client service parsed.cookie now)
    | _, _ => none
  | _ => none

/-- What a call can do to the tables, and the meeting it logs. -/
inductive Turn (rv : RendezvousState) : RendezvousCall → Option Meeting → RendezvousState → Prop
  | same (call : RendezvousCall) : Turn rv call none rv
  | registered {circ : CircuitRef} {body : Bytes} {now : Instant} {parsed : EstablishIntroBody}
    (hbody : EstablishIntroBody.decode body = .ok parsed) (hrole : rv.roles.lookup circ = none)
    (hkey : ∀ p, rv.intros.lookup parsed.introAuthPk = some p →
      p.circ = circ ∨ fresh introRegistrationTtl now p = false) :
    Turn rv (.establishIntro circ body now) none
      { rv with
        intros := rv.intros.insert parsed.introAuthPk ⟨circ, now⟩
        roles := rv.roles.insert circ (.intro parsed.introAuthPk) }
  | parked {circ : CircuitRef} {cookieBytes : Bytes} {now : Instant}
    (hrole : rv.roles.lookup circ = none) (hnew : rv.cookies.lookup (vec 32 cookieBytes) = none) :
    Turn rv (.establishRendezvous circ cookieBytes now)
      (some (.parked circ (vec 32 cookieBytes) now))
      { rv with
        cookies := rv.cookies.insert (vec 32 cookieBytes) ⟨circ, now⟩
        roles := rv.roles.insert circ (.cookie (vec 32 cookieBytes)) }
  | met {circ : CircuitRef} {body : Bytes} {now : Instant} {cookie : Bytes32} {p : Parked}
    (hrole : rv.roles.lookup circ = none) (hp : rv.cookies.lookup cookie = some p)
    (hfresh : fresh rendezvousCookieTtl now p = true) :
    Turn rv (.rendezvous circ body now) (some (.joined p.circ circ cookie now))
      { rv with
        cookies := rv.cookies.erase cookie
        roles := (rv.roles.insert p.circ .joined).insert circ .joined
        joined := (rv.joined.insert p.circ circ).insert circ p.circ }
  | swept (now : Instant) : Turn rv (.tick now) none (rv.tick now).2
  | unregistered {circ : CircuitRef} {pk : Bytes32}
    (hrole : rv.roles.lookup circ = some (.intro pk)) :
    Turn rv (.forget circ) none
      { rv with roles := rv.roles.erase circ, intros := eraseOwn circ rv.intros pk }
  | unparked {circ : CircuitRef} {cookie : Bytes32}
    (hrole : rv.roles.lookup circ = some (.cookie cookie)) :
    Turn rv (.forget circ) none
      { rv with roles := rv.roles.erase circ, cookies := eraseOwn circ rv.cookies cookie }
  | parted {circ p : CircuitRef} (hrole : rv.roles.lookup circ = some .joined)
    (hp : rv.joined.lookup circ = some p) :
    Turn rv (.forget circ) none
      { rv with
        joined := (rv.joined.erase circ).erase p
        roles := (rv.roles.erase circ).erase p }
  | lone {circ : CircuitRef} (hrole : rv.roles.lookup circ = some .joined)
    (hp : rv.joined.lookup circ = none) :
    Turn rv (.forget circ) none
      { rv with joined := rv.joined.erase circ, roles := rv.roles.erase circ }

lemma turn_establishIntro (body : Bytes) :
    rv.Turn (.establishIntro circ body now) none (rv.establishIntro S circ body now).2 := by
  unfold establishIntro
  split
  · exact .same _
  next parsed hb =>
    split
    · exact .same _
    split_ifs with hr hk hf
    · exact .same _
    · exact .same _
    · exact .same _
    refine .registered hb (Option.not_isSome_iff_eq_none.1 hr) fun p hp => ?_
    rw [hp] at hk
    by_cases hc : p.circ = circ
    · exact .inl hc
    · exact .inr (by simpa [hc] using hk)

lemma turn_establishRendezvous (bytes : Bytes) :
    rv.Turn (.establishRendezvous circ bytes now) (rv.meeting (.establishRendezvous circ bytes now))
      (rv.establishRendezvous circ bytes now).2 := by
  unfold meeting establishRendezvous
  dsimp only
  split_ifs with hl hr hn hf
  · exact .same _
  · exact .same _
  · exact .same _
  · exact .same _
  · exact .parked (Option.not_isSome_iff_eq_none.1 hr) (Option.not_isSome_iff_eq_none.1 hn)

lemma turn_rendezvous (body : Bytes) :
    rv.Turn (.rendezvous circ body now) (rv.meeting (.rendezvous circ body now))
      (rv.rendezvous circ body now).2 := by
  unfold meeting rendezvous
  dsimp only
  cases hb : RendezvousBody.decode body with
  | error e => exact .same _
  | ok parsed =>
    dsimp only
    split_ifs with hr
    · exact .same _
    cases hp : (rv.cookies.lookup parsed.cookie).filter (fresh rendezvousCookieTtl now) with
    | none => exact .same _
    | some p =>
      obtain ⟨hp, hf⟩ := Option.filter_eq_some_iff.1 hp
      exact .met (Option.not_isSome_iff_eq_none.1 hr) hp hf

lemma turn_forget : rv.Turn (.forget circ) none (rv.forget circ).2 := by
  unfold forget
  split
  next pk hr => exact .unregistered hr
  next cookie hr => exact .unparked hr
  next hr =>
    split
    next hp => exact .lone hr hp
    next p hp => exact .parted hr hp
  next hr =>
    rw [erase_eq_self hr]
    exact .same _

lemma step_turn (S : Ed25519) (rv : RendezvousState) (call : RendezvousCall) :
    rv.Turn call (rv.meeting call) (rv.step S call) := by
  cases call with
  | establishIntro circ body now => exact turn_establishIntro body
  | establishRendezvous circ bytes now => exact turn_establishRendezvous bytes
  | introduce pk body now => exact .same _
  | rendezvous circ body now => exact turn_rendezvous body
  | tick now => exact .swept now
  | forget circ => exact turn_forget

lemma fresh_of_add_le (h : p.since + ttl ≤ now) : fresh ttl now p = false :=
  decide_eq_false (Nat.not_lt.2 (Nat.le_sub_of_add_le' h))

lemma mem_stale :
    x ∈ stale ttl now m ↔ ∃ k p, m.lookup k = some p ∧ fresh ttl now p = false ∧ p.circ = x := by
  unfold stale
  simp only [mem_map, mem_filter, Bool.not_eq_true']
  constructor
  · rintro ⟨s, ⟨hs, hf⟩, hx⟩
    exact ⟨s.1, s.2, mem_lookup_iff.2 hs, hf, hx⟩
  · rintro ⟨k, p, hp, hf, hx⟩
    exact ⟨⟨k, p⟩, ⟨mem_lookup_iff.1 hp, hf⟩, hx⟩

variable {k' : Bytes32}

lemma lookup_of_eraseOwn (h : (eraseOwn circ m k).lookup k' = some p) :
    m.lookup k' = some p ∧ (k' = k → p.circ ≠ circ) := by
  unfold eraseOwn at h
  split_ifs at h with ho
  · refine ⟨lookup_of_erase h, fun hk => ?_⟩
    rw [hk, lookup_erase] at h
    cases h
  · refine ⟨h, fun hk hc => ho ?_⟩
    rw [← hk, h]
    simpa using hc

lemma lookup_eraseOwn (h : m.lookup k' = some p) (hp : p.circ ≠ circ) :
    (eraseOwn circ m k).lookup k' = some p := by
  unfold eraseOwn
  split_ifs with ho
  · have hk : k' ≠ k := by
      rintro rfl
      rw [h] at ho
      exact hp (by simpa using ho)
    rwa [lookup_erase_ne hk]
  · exact h

/-- Who has a role of the kind is in the table. -/
def Owned (kind : Bytes32 → Role) (m : AList fun _ : Bytes32 => Parked)
    (roles : AList fun _ : CircuitRef => Role) : Prop :=
  ∀ x k, roles.lookup x = some (kind k) → ∃ p, m.lookup k = some p ∧ p.circ = x

/-- Roles and tables agree, and joined circuits come in pairs. -/
structure Agrees (rv : RendezvousState) : Prop where
  intro : ∀ k p, rv.intros.lookup k = some p → rv.roles.lookup p.circ = some (.intro k)
  cookie : ∀ k p, rv.cookies.lookup k = some p → rv.roles.lookup p.circ = some (.cookie k)
  joined : ∀ x y, rv.joined.lookup x = some y → rv.roles.lookup x = some .joined
  parked : Owned .cookie rv.cookies rv.roles
  paired : ∀ x, rv.roles.lookup x = some .joined → ∃ y, rv.joined.lookup x = some y
  symm : ∀ x y, rv.joined.lookup x = some y → rv.joined.lookup y = some x
  irrefl : ∀ x, rv.joined.lookup x ≠ some x

section Owned

variable {kind : Bytes32 → Role} {m : AList fun _ : Bytes32 => Parked}
  {roles roles' : AList fun _ : CircuitRef => Role} {k : Bytes32}

lemma Owned.of_lookup (h : Owned kind m roles)
    (hr : ∀ x k, roles'.lookup x = some (kind k) → roles.lookup x = some (kind k)) :
    Owned kind m roles' :=
  fun x k hx => h x k (hr x k hx)

lemma Owned.insert (h : Owned kind m roles) (hkn : Function.Injective kind)
    (hn : m.lookup k = none) :
    Owned kind (m.insert k ⟨circ, now⟩) (roles.insert circ (kind k)) := by
  intro x k' hx
  rcases lookup_of_insert hx with ⟨rfl, hk⟩ | hx
  · rw [hkn hk]
    exact ⟨_, lookup_insert _, rfl⟩
  obtain ⟨p, hp, hx⟩ := h x k' hx
  have hk : k' ≠ k := by
    rintro rfl
    rw [hn] at hp
    cases hp
  exact ⟨p, (lookup_insert_ne hk).trans hp, hx⟩

lemma Owned.eraseOwn (h : Owned kind m roles) :
    Owned kind (eraseOwn circ m k) (roles.erase circ) := by
  intro x k' hx
  have hne : x ≠ circ := by
    rintro rfl
    rw [lookup_erase] at hx
    cases hx
  obtain ⟨p, hp, rfl⟩ := h x k' (lookup_of_erase hx)
  exact ⟨p, lookup_eraseOwn hp hne, rfl⟩

lemma Owned.sweep (h : Owned kind m roles) {out : List CircuitRef}
    (ho : stale ttl now m ⊆ out) : Owned kind (retain (fresh ttl now) m)
      (out.foldl (fun roles circ => roles.erase circ) roles) := by
  intro x k hx
  rw [lookup_foldl_erase] at hx
  split_ifs at hx with hm
  obtain ⟨p, hp, hpx⟩ := h x k hx
  refine ⟨p, ?_, hpx⟩
  rw [lookup_retain, hp]
  refine Option.filter_eq_some_iff.2 ⟨rfl, ?_⟩
  by_contra hf
  exact hm (ho (mem_stale.2 ⟨k, p, hp, Bool.not_eq_true _ ▸ hf, hpx⟩))

end Owned

lemma intro_injective : Function.Injective Role.intro := fun _ _ h => Role.intro.inj h

lemma cookie_injective : Function.Injective Role.cookie := fun _ _ h => Role.cookie.inj h

lemma Agrees.lookup_roles_tick (ha : rv.Agrees) {r : Role} (hr : rv.roles.lookup x = some r)
    (hc : ∀ k p, r = .cookie k → rv.cookies.lookup k = some p →
      fresh rendezvousCookieTtl now p = true)
    (hi : ∀ k p, r = .intro k → rv.intros.lookup k = some p →
      fresh introRegistrationTtl now p = true) :
    (rv.tick now).2.roles.lookup x = some r := by
  refine (lookup_foldl_erase _ _).trans ?_
  rw [if_neg, hr]
  -- A circuit the sweep names has the role of the entry that went stale.
  rw [mem_append, mem_stale, mem_stale]
  rintro (⟨k, p, hp, hf, rfl⟩ | ⟨k, p, hp, hf, rfl⟩)
  · rw [ha.cookie k p hp, Option.some.injEq] at hr
    rw [hc k p hr.symm hp] at hf
    cases hf
  · rw [ha.intro k p hp, Option.some.injEq] at hr
    rw [hi k p hr.symm hp] at hf
    cases hf

lemma Agrees.tick (ha : rv.Agrees) : (rv.tick now).2.Agrees where
  intro k p h := by
    obtain ⟨hp, hf⟩ := Option.filter_eq_some_iff.1 ((lookup_retain).symm.trans h)
    refine ha.lookup_roles_tick (ha.intro k p hp) (fun _ _ hk => nomatch hk) fun k' p' hk hp' => ?_
    cases hk
    rw [hp, Option.some.injEq] at hp'
    rwa [← hp']
  cookie k p h := by
    obtain ⟨hp, hf⟩ := Option.filter_eq_some_iff.1 ((lookup_retain).symm.trans h)
    refine ha.lookup_roles_tick (ha.cookie k p hp) (fun k' p' hk hp' => ?_) fun _ _ hk => nomatch hk
    cases hk
    rw [hp, Option.some.injEq] at hp'
    rwa [← hp']
  joined x y h :=
    ha.lookup_roles_tick (ha.joined x y h) (fun _ _ hk => nomatch hk) fun _ _ hk => nomatch hk
  parked := ha.parked.sweep (subset_append_left _ _)
  paired x h := ha.paired x (lookup_of_foldl_erase h)
  symm := ha.symm
  irrefl := ha.irrefl

lemma agrees_new : new.Agrees := by
  constructor <;> simp [new, Owned]

lemma Agrees.register (ha : rv.Agrees) (hr : rv.roles.lookup circ = none) : Agrees { rv with
      intros := rv.intros.insert k ⟨circ, now⟩
      roles := rv.roles.insert circ (.intro k) } := by
  have ⟨hi, hc, hj, hp, hpr, hs, hir⟩ := ha
  constructor
  case parked =>
    refine hp.of_lookup fun x k' hx => ?_
    exact (lookup_of_insert hx).resolve_left fun h => nomatch h.2
  all_goals grind [lookup_insert_eq_ite]

lemma Agrees.park (ha : rv.Agrees) (hr : rv.roles.lookup circ = none)
    (hn : rv.cookies.lookup k = none) :
    Agrees { rv with
      cookies := rv.cookies.insert k ⟨circ, now⟩
      roles := rv.roles.insert circ (.cookie k) } := by
  have ⟨hi, hc, hj, hp, hpr, hs, hir⟩ := ha
  constructor
  case parked => exact hp.insert cookie_injective hn
  all_goals grind [lookup_insert_eq_ite]

lemma Agrees.meet (ha : rv.Agrees) (hr : rv.roles.lookup circ = none)
    (hp : rv.cookies.lookup k = some p) :
    Agrees { rv with
      cookies := rv.cookies.erase k
      roles := (rv.roles.insert p.circ .joined).insert circ .joined
      joined := (rv.joined.insert p.circ circ).insert circ p.circ } := by
  have ⟨hi, hc, hj, hpr, hpa, hs, hir⟩ := ha
  constructor
  case parked =>
    intro x k' hx
    have hx := (lookup_of_insert hx).resolve_left fun h => nomatch h.2
    by_cases hxp : x = p.circ
    · rw [hxp, lookup_insert] at hx
      cases hx
    rw [lookup_insert_ne hxp] at hx
    obtain ⟨p', hp', rfl⟩ := hpr x k' hx
    have hk : k' ≠ k := by
      rintro rfl
      rw [hp, Option.some.injEq] at hp'
      exact hxp (by rw [hp'])
    exact ⟨p', (lookup_erase_ne hk).trans hp', rfl⟩
  case paired =>
    intro x h
    by_cases hx : x = circ
    · exact ⟨p.circ, by rw [hx, lookup_insert]⟩
    by_cases hx' : x = p.circ
    · exact ⟨circ, by rw [lookup_insert_ne hx, hx', lookup_insert]⟩
    rw [lookup_insert_ne hx, lookup_insert_ne hx'] at h
    obtain ⟨y, hy⟩ := hpa x h
    exact ⟨y, by rw [lookup_insert_ne hx, lookup_insert_ne hx', hy]⟩
  all_goals grind [lookup_insert_eq_ite, lookup_erase_eq_ite]

variable {ev : Option Meeting} {log : List Meeting}

lemma Turn.agrees (h : rv.Turn call ev rv') (ha : rv.Agrees) : rv'.Agrees := by
  have ⟨hi, hc, hj, hpr, hpa, hs, hir⟩ := ha
  cases h with
  | same => exact ha
  | registered hb hr hk => exact ha.register hr
  | parked hr hn => exact ha.park hr hn
  | met hr hp hf => exact ha.meet hr hp
  | swept now => exact ha.tick
  | unregistered hr =>
    constructor
    case parked => exact hpr.of_lookup fun _ _ => lookup_of_erase
    all_goals grind [lookup_erase_eq_ite, lookup_of_eraseOwn]
  | unparked hr =>
    constructor
    case parked => exact hpr.eraseOwn
    all_goals grind [lookup_erase_eq_ite, lookup_of_eraseOwn]
  | parted hr hp =>
    constructor
    case parked => exact hpr.of_lookup fun _ _ h => lookup_of_erase (lookup_of_erase h)
    all_goals grind [lookup_erase_eq_ite]
  | lone hr hp =>
    constructor
    case parked => exact hpr.of_lookup fun _ _ => lookup_of_erase
    all_goals grind [lookup_erase_eq_ite]

/-- The call registers no key that another circuit's registration has let expire. -/
def Swept (rv : RendezvousState) : RendezvousCall → Prop
  | .establishIntro circ body now =>
    match EstablishIntroBody.decode body with
    | .ok parsed => ((rv.intros.lookup parsed.introAuthPk).all fun p =>
        p.circ = circ || fresh introRegistrationTtl now p) = true
    | .error _ => True
  | _ => True

instance (rv : RendezvousState) (call : RendezvousCall) : Decidable (rv.Swept call) := by
  unfold Swept
  split
  · split <;> infer_instance
  · infer_instance

lemma Turn.registered_of_swept (h : rv.Turn call ev rv') (ha : rv.Agrees)
    (hr : Owned .intro rv.intros rv.roles) (hsw : rv.Swept call) :
    Owned .intro rv'.intros rv'.roles := by
  cases h with
  | same => exact hr
  | @registered circ _ now parsed hb hrl hk =>
    refine hr.insert intro_injective (Option.eq_none_iff_forall_ne_some.2 fun p hp => ?_)
    have hc : p.circ = circ := by
      unfold Swept at hsw
      simp only [hb, hp, Option.all_some] at hsw
      rcases hk p hp with h | h
      · exact h
      · simpa [h] using hsw
    rw [← hc, ha.intro _ p hp] at hrl
    cases hrl
  | parked hrl hn =>
    refine hr.of_lookup fun x k hx => ?_
    exact (lookup_of_insert hx).resolve_left fun h => nomatch h.2
  | met hrl hp hf =>
    refine hr.of_lookup fun x k hx => ?_
    have hx := (lookup_of_insert hx).resolve_left fun h => nomatch h.2
    exact (lookup_of_insert hx).resolve_left fun h => nomatch h.2
  | swept now => exact hr.sweep (subset_append_right _ _)
  | unregistered hrl => exact hr.eraseOwn
  | unparked hrl | lone hrl hp => exact hr.of_lookup fun _ _ => lookup_of_erase
  | parted hrl hp => exact hr.of_lookup fun _ _ h => lookup_of_erase (lookup_of_erase h)

lemma Owned.iff {kind : Bytes32 → Role} {roles : AList fun _ : CircuitRef => Role}
    (h : Owned kind m roles) (hm : ∀ k p, m.lookup k = some p → roles.lookup p.circ = some (kind k))
    (x : CircuitRef) (k : Bytes32) :
    roles.lookup x = some (kind k) ↔ (m.lookup k).map Parked.circ = some x := by
  rw [Option.map_eq_some_iff]
  constructor
  · exact h x k
  · rintro ⟨p, hp, rfl⟩
    exact hm k p hp

lemma lookup_roles_tick_of_old (hp : m.lookup k = some p)
    (hm : stale ttl now m ⊆ stale rendezvousCookieTtl now rv.cookies ++
      stale introRegistrationTtl now rv.intros) (hn : p.since + ttl ≤ now) :
    (rv.tick now).2.roles.lookup p.circ = none :=
  have hmm := hm (mem_stale.2 ⟨k, p, hp, fresh_of_add_le hn, rfl⟩)
  (lookup_foldl_erase _ _).trans (if_pos hmm)

/-- If no key is taken over before it is swept, roles and tables agree. -/
theorem roles_match_tables (S : Ed25519) (calls : List RendezvousCall)
    (h : Runs.Along (step S) Swept new calls) :
    let rv := Runs.run (step S) new calls
    (∀ c k, rv.roles.lookup c = some (.intro k) ↔ (rv.intros.lookup k).map Parked.circ = some c) ∧
    (∀ c k, rv.roles.lookup c = some (.cookie k) ↔ (rv.cookies.lookup k).map Parked.circ = some c) ∧
    (∀ c, rv.roles.lookup c = some .joined ↔ c ∈ rv.joined) ∧
    ∀ c r, rv.roles.lookup c = some r →
      (∃ p, rv.partner c = some p) ∨
        ∃ t, ∀ now, t ≤ now → (rv.tick now).2.roles.lookup c = none := by
  intro rv
  obtain ⟨ha, hr⟩ : rv.Agrees ∧ Owned .intro rv.intros rv.roles :=
    Runs.inv_run (I := fun rv => rv.Agrees ∧ Owned .intro rv.intros rv.roles)
      (fun rv call hI hsw =>
        ⟨(step_turn S rv call).agrees hI.1,
          (step_turn S rv call).registered_of_swept hI.1 hI.2 hsw⟩)
      new calls ⟨agrees_new, fun _ _ h => nomatch h⟩ h
  refine ⟨hr.iff ha.intro, ha.parked.iff ha.cookie, fun c => ?_, fun c r hc => ?_⟩
  · rw [mem_iff_lookup]
    exact ⟨ha.paired c, fun ⟨y, hy⟩ => ha.joined c y hy⟩
  cases r with
  | intro k =>
    obtain ⟨p, hp, rfl⟩ := hr c k hc
    exact .inr ⟨_, fun now => lookup_roles_tick_of_old hp (List.subset_append_right _ _)⟩
  | cookie k =>
    obtain ⟨p, hp, rfl⟩ := ha.parked c k hc
    exact .inr ⟨_, fun now => lookup_roles_tick_of_old hp (List.subset_append_left _ _)⟩
  | joined => exact .inl (ha.paired c hc)

def afterCalls (calls : List RendezvousCall) : RendezvousState :=
  Runs.run (step ⟨fun _ => true, fun _ _ _ => true⟩) new calls

def zeroIntro : Bytes := List.replicate establishIntroBodyLen 0

def takeOver : List RendezvousCall :=
  [.establishIntro ⟨0, 1⟩ zeroIntro 0, .tick introRegistrationTtl,
    .establishIntro ⟨1, 1⟩ zeroIntro introRegistrationTtl]

theorem roles_match_tables_takeOver :
    (afterCalls takeOver).roles.lookup ⟨1, 1⟩ = some (.intro (vec 32 zeroIntro)) :=
  ((roles_match_tables ⟨fun _ => true, fun _ _ _ => true⟩ takeOver (by decide +kernel)).1 _ _).2
    (by decide +kernel)

/-- Another circuit takes an expired key before the sweep, and the first keeps its role. -/
theorem role_outlives_registration :
    let rv := afterCalls [.establishIntro ⟨0, 1⟩ zeroIntro 0,
      .establishIntro ⟨1, 1⟩ zeroIntro introRegistrationTtl]
    rv.roles.lookup ⟨0, 1⟩ = some (.intro (vec 32 zeroIntro)) ∧
      (rv.intros.lookup (vec 32 zeroIntro)).map Parked.circ ≠ some ⟨0, 1⟩ ∧
      (rv.tick (10 * introRegistrationTtl)).2.roles.lookup ⟨0, 1⟩ =
        some (.intro (vec 32 zeroIntro)) := by
  decide +kernel

def logged (S : Ed25519) (s : RendezvousState × List Meeting) (call : RendezvousCall) :
    RendezvousState × List Meeting :=
  (s.1.step S call, (s.1.meeting call).toList ++ s.2)

/-- Before a join, the last the log has of the client is that it parked this cookie in time. -/
def Honest : List Meeting → Prop
  | [] => True
  | .parked _ _ _ :: log => Honest log
  | .joined client _ cookie now :: log =>
    (∃ since, log.find? (·.client = client) = some (.parked client cookie since) ∧
      now < since + rendezvousCookieTtl) ∧ Honest log

/-- Tables and roles agree with the log of meetings. -/
structure Recorded (s : RendezvousState × List Meeting) : Prop where
  agrees : s.1.Agrees
  parked : ∀ k p, s.1.cookies.lookup k = some p →
    s.2.find? (·.client = p.circ) = some (.parked p.circ k p.since)
  joined : ∀ x y, s.1.joined.lookup x = some y →
    ∃ k t, .joined x y k t ∈ s.2 ∨ .joined y x k t ∈ s.2
  honest : Honest s.2

lemma Recorded.of_quiet (h : Recorded (rv, log)) (ha : rv'.Agrees)
    (hc : ∀ k p, rv'.cookies.lookup k = some p → rv.cookies.lookup k = some p)
    (hj : ∀ x y, rv'.joined.lookup x = some y → rv.joined.lookup x = some y) :
    Recorded (rv', log) :=
  ⟨ha, fun k p hp => h.parked k p (hc k p hp), fun x y hx => h.joined x y (hj x y hx), h.honest⟩

lemma Recorded.park {cookie : Bytes32} (h : Recorded (rv, log)) (ha : Agrees { rv with
      cookies := rv.cookies.insert cookie ⟨circ, now⟩
      roles := rv.roles.insert circ (.cookie cookie) }) (hr : rv.roles.lookup circ = none) :
    Recorded ({ rv with
      cookies := rv.cookies.insert cookie ⟨circ, now⟩
      roles := rv.roles.insert circ (.cookie cookie) }, .parked circ cookie now :: log) := by
  refine ⟨ha, fun k p hp => ?_, fun x y hx => ?_, h.honest⟩
  · rcases lookup_of_insert hp with ⟨rfl, rfl⟩ | ho
    · exact find?_cons_of_pos (by simp [Meeting.client])
    · have hne : circ ≠ p.circ := by
        rintro rfl
        rw [h.agrees.cookie k p ho] at hr
        cases hr
      exact (find?_cons_of_neg (by simp [Meeting.client, hne])).trans (h.parked k p ho)
  · obtain ⟨k, t, hm⟩ := h.joined x y hx
    exact ⟨k, t, hm.imp (mem_cons_of_mem _) (mem_cons_of_mem _)⟩

lemma Turn.recorded (h : rv.Turn call ev rv') (hr : Recorded (rv, log)) :
    Recorded (rv', ev.toList ++ log) := by
  have ha := h.agrees hr.agrees
  cases h with
  | same => exact hr
  | registered hb hrl hky | unregistered hrl =>
    exact hr.of_quiet ha (fun _ _ => id) fun _ _ => id
  | parked hrl hn => exact hr.park ha hrl
  | @met circ body now cookie p hrl hp hf =>
    refine ⟨ha, fun k p' hp' => ?_, fun x y hx => ?_, ⟨⟨p.since, hr.parked _ p hp, ?_⟩, hr.honest⟩⟩
    · -- Another cookie is another client's, as a client has one role.
      have hk : k ≠ cookie := by
        rintro rfl
        rw [lookup_erase] at hp'
        cases hp'
      have hp' := lookup_of_erase hp'
      have hne : p.circ ≠ p'.circ := by
        intro he
        have hc := hr.agrees.cookie k p' hp'
        rw [← he, hr.agrees.cookie _ p hp] at hc
        exact hk (cookie_injective (Option.some.inj hc)).symm
      exact (find?_cons_of_neg (by simp [Meeting.client, hne])).trans (hr.parked k p' hp')
    · rcases lookup_of_insert hx with ⟨rfl, rfl⟩ | hx
      · exact ⟨cookie, now, .inr mem_cons_self⟩
      rcases lookup_of_insert hx with ⟨rfl, rfl⟩ | hx
      · exact ⟨cookie, now, .inl mem_cons_self⟩
      obtain ⟨k, t, hm⟩ := hr.joined x y hx
      exact ⟨k, t, hm.imp (mem_cons_of_mem _) (mem_cons_of_mem _)⟩
    · by_contra hle
      rw [fresh_of_add_le (Nat.le_of_not_lt hle)] at hf
      cases hf
  | swept now => exact hr.of_quiet ha (fun _ _ => lookup_of_retain) fun _ _ => id
  | unparked hrl => exact hr.of_quiet ha (fun _ _ h => (lookup_of_eraseOwn h).1) fun _ _ => id
  | parted hrl hp =>
    exact hr.of_quiet ha (fun _ _ => id) fun _ _ h => lookup_of_erase (lookup_of_erase h)
  | lone hrl hp => exact hr.of_quiet ha (fun _ _ => id) fun _ _ => lookup_of_erase

lemma Agrees.partner_forget (ha : rv.Agrees) (c : CircuitRef) : (rv.forget c).2.partner c = none ∧
      ∀ p, rv.partner c = some p → (rv.forget c).2.partner p = none := by
  unfold forget partner
  cases hc : rv.joined.lookup c with
  | none =>
    refine ⟨?_, fun p hp => nomatch hp⟩
    split
    · exact hc
    · exact hc
    · exact lookup_erase _ _
    · exact hc
  | some p =>
    rw [ha.joined c p hc]
    refine ⟨?_, fun p' hp' => ?_⟩
    · simp [lookup_erase_eq_ite]
    · cases hp'
      exact lookup_erase _ _

/-- Who is joined has one partner, after a cookie that was parked in time; forgetting one frees the
other. -/
theorem meetings_are_private (S : Ed25519) (calls : List RendezvousCall) :
    let s := Runs.run (logged S) (new, []) calls
    (∀ x y, s.1.partner x = some y → s.1.partner y = some x ∧ x ≠ y) ∧
    (∀ x y, s.1.partner x = some y →
      ∃ cookie now, .joined x y cookie now ∈ s.2 ∨ .joined y x cookie now ∈ s.2) ∧
    Honest s.2 ∧
    ∀ c, (s.1.forget c).2.partner c = none ∧
      ∀ p, s.1.partner c = some p → (s.1.forget c).2.partner p = none := by
  intro s
  have hr : Recorded s :=
    Runs.inv_run
      (fun s call hr _ => (step_turn S s.1 call).recorded hr) (new, []) calls
      ⟨agrees_new, fun _ _ h => (nomatch h), fun _ _ h => (nomatch h), trivial⟩
      (Runs.along_true _ _)
  refine ⟨fun x y hx => ⟨hr.agrees.symm x y hx, ?_⟩, hr.joined, hr.honest, hr.agrees.partner_forget⟩
  rintro rfl
  exact hr.agrees.irrefl x hx

/-- The tables know the circuit. -/
inductive Mentions (rv : RendezvousState) : CircuitRef → Prop
  | role {x : CircuitRef} {r : Role} (h : rv.roles.lookup x = some r) : Mentions rv x
  | intro {k : Bytes32} {p : Parked} (h : rv.intros.lookup k = some p) : Mentions rv p.circ
  | cookie {k : Bytes32} {p : Parked} (h : rv.cookies.lookup k = some p) :
    Mentions rv p.circ
  | joined {x y : CircuitRef} (h : rv.joined.lookup x = some y) : Mentions rv x
  | partner {x y : CircuitRef} (h : rv.joined.lookup x = some y) : Mentions rv y

lemma mentions_iff : rv.Mentions x ↔ x ∈ rv.roles ∨ (∃ s ∈ rv.intros.entries, s.2.circ = x) ∨
      (∃ s ∈ rv.cookies.entries, s.2.circ = x) ∨ x ∈ rv.joined ∨
      ∃ s ∈ rv.joined.entries, s.2 = x := by
  constructor
  · rintro (h | h | h | h | h)
    · exact .inl (mem_of_lookup h)
    · exact .inr (.inl ⟨_, mem_lookup_iff.1 h, rfl⟩)
    · exact .inr (.inr (.inl ⟨_, mem_lookup_iff.1 h, rfl⟩))
    · exact .inr (.inr (.inr (.inl (mem_of_lookup h))))
    · exact .inr (.inr (.inr (.inr ⟨_, mem_lookup_iff.1 h, rfl⟩)))
  · rintro (h | ⟨s, hs, rfl⟩ | ⟨s, hs, rfl⟩ | h | ⟨s, hs, rfl⟩)
    · obtain ⟨r, hr⟩ := mem_iff_lookup.1 h
      exact .role hr
    · exact .intro (mem_lookup_iff.2 hs)
    · exact .cookie (mem_lookup_iff.2 hs)
    · obtain ⟨y, hy⟩ := mem_iff_lookup.1 h
      exact .joined hy
    · exact .partner (mem_lookup_iff.2 hs)

instance (rv : RendezvousState) (x : CircuitRef) : Decidable (rv.Mentions x) :=
  decidable_of_iff' _ mentions_iff

lemma Mentions.mono (h : rv'.Mentions x)
    (hr : ∀ x r, rv'.roles.lookup x = some r → rv.roles.lookup x = some r)
    (hi : ∀ k p, rv'.intros.lookup k = some p → rv.intros.lookup k = some p)
    (hc : ∀ k p, rv'.cookies.lookup k = some p → rv.cookies.lookup k = some p)
    (hj : ∀ x y, rv'.joined.lookup x = some y → rv.joined.lookup x = some y) : rv.Mentions x := by
  cases h with
  | role h => exact .role (hr _ _ h)
  | intro h => exact .intro (hi _ _ h)
  | cookie h => exact .cookie (hc _ _ h)
  | joined h => exact .joined (hj _ _ h)
  | partner h => exact .partner (hj _ _ h)

lemma Turn.mentions (h : rv.Turn call ev rv') (hx : rv'.Mentions x) :
    rv.Mentions x ∨ call.circ = some x := by
  cases h with
  | same => exact .inl hx
  | registered hb hr hk =>
    cases hx with
    | role h => exact (lookup_of_insert h).symm.imp .role fun h => congrArg some h.1.symm
    | intro h =>
      exact (lookup_of_insert h).symm.imp .intro fun h => by rw [h.2]; rfl
    | cookie h => exact .inl (.cookie h)
    | joined h => exact .inl (.joined h)
    | partner h => exact .inl (.partner h)
  | parked hr hn =>
    cases hx with
    | role h => exact (lookup_of_insert h).symm.imp .role fun h => congrArg some h.1.symm
    | intro h => exact .inl (.intro h)
    | cookie h =>
      exact (lookup_of_insert h).symm.imp .cookie fun h => by rw [h.2]; rfl
    | joined h => exact .inl (.joined h)
    | partner h => exact .inl (.partner h)
  | met hr hp hf =>
    cases hx with
    | role h =>
      rcases lookup_of_insert h with ⟨rfl, -⟩ | h
      · exact .inr rfl
      rcases lookup_of_insert h with ⟨rfl, -⟩ | h
      · exact .inl (.cookie hp)
      · exact .inl (.role h)
    | intro h => exact .inl (.intro h)
    | cookie h => exact .inl (.cookie (lookup_of_erase h))
    | joined h =>
      rcases lookup_of_insert h with ⟨rfl, -⟩ | h
      · exact .inr rfl
      rcases lookup_of_insert h with ⟨rfl, -⟩ | h
      · exact .inl (.cookie hp)
      · exact .inl (.joined h)
    | partner h =>
      rcases lookup_of_insert h with ⟨-, rfl⟩ | h
      · exact .inl (.cookie hp)
      rcases lookup_of_insert h with ⟨-, rfl⟩ | h
      · exact .inr rfl
      · exact .inl (.partner h)
  | swept now =>
    exact .inl (hx.mono (fun _ _ => lookup_of_foldl_erase) (fun _ _ => lookup_of_retain)
      (fun _ _ => lookup_of_retain) fun _ _ => id)
  | unregistered hr =>
    exact .inl (hx.mono (fun _ _ => lookup_of_erase) (fun _ _ h => (lookup_of_eraseOwn h).1)
      (fun _ _ => id) fun _ _ => id)
  | unparked hr =>
    exact .inl (hx.mono (fun _ _ => lookup_of_erase) (fun _ _ => id)
      (fun _ _ h => (lookup_of_eraseOwn h).1) fun _ _ => id)
  | parted hr hp =>
    exact .inl (hx.mono (fun _ _ h => lookup_of_erase (lookup_of_erase h)) (fun _ _ => id)
      (fun _ _ => id) fun _ _ h => lookup_of_erase (lookup_of_erase h))
  | lone hr hp =>
    exact .inl (hx.mono (fun _ _ => lookup_of_erase) (fun _ _ => id) (fun _ _ => id)
      fun _ _ => lookup_of_erase)

lemma mentions_run : ∀ rv calls,
    (Runs.run (step S) rv calls).Mentions x → rv.Mentions x ∨ ∃ c ∈ calls, c.circ = some x
  | _, [], h => .inl h
  | rv, call :: calls, h => by
    rcases mentions_run (rv.step S call) calls h with h | ⟨c, hc, hx⟩
    · rcases (step_turn S rv call).mentions h with h | h
      · exact .inl h
      · exact .inr ⟨call, mem_cons_self, h⟩
    · exact .inr ⟨c, mem_cons_of_mem _ hc, hx⟩

end Mirage.Circuits.RendezvousState
