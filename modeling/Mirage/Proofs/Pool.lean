import Mirage.Lib.Maps
import Mirage.Lib.Runs
import Mirage.Router.Pool

/-!
# The pool stays within its limits

Whatever a call does is a chain of a few changes (`Change`), which keep the policy (`Fits`) and the
index (`Indexed`).
-/

namespace Mirage.Router

open Slots Words Runs Maps Function PoolEntry Nat
open List hiding Vector

variable {Id : Type*} {policy : PoolPolicy} {order : List Class}

namespace PoolEntry

/-- The entry is within its profile, and has a handle once it is built. -/
structure Sound (e : PoolEntry Id) : Prop where
  streams : e.streams ≤ e.profile.maxStreams
  pending : e.pendingStreams ≤ e.profile.maxStreams
  handle : e.id = none ↔ e.state = .building

/-- The changes of an entry that stays where it is. -/
inductive Tended (e : PoolEntry Id) : PoolEntry Id → Prop
  | served (hhealthy : e.state = .healthy) (hroom : e.streams < e.profile.maxStreams) :
    Tended e { e with streams := e.streams + 1 }
  | released : Tended e { e with streams := e.streams - 1 }
  | failed (hid : e.id ≠ none) : Tended e { e with state := .failed }
  | drained {now : ℕ} (hid : e.id ≠ none) :
    Tended e { e with state := .draining, stateEntered := now }

variable {e e' : PoolEntry Id}

lemma isBuilding_iff : e.isBuilding = true ↔ e.state = .building := decide_eq_true_iff

lemma Tended.id_eq (h : Tended e e') : e'.id = e.id := by
  cases h <;> rfl

lemma Tended.pendingStreams_eq (h : Tended e e') : e'.pendingStreams = e.pendingStreams := by
  cases h <;> rfl

lemma Tended.isBuilding_eq (h : Tended e e') (hs : e.Sound) : e'.isBuilding = e.isBuilding := by
  have hn : e.id ≠ none → e.isBuilding = false := fun hid =>
    decide_eq_false fun hb => hid (hs.handle.2 hb)
  cases h with
  | served | released => rfl
  | failed hid | drained hid => exact (hn hid).symm

lemma Tended.sound (h : Tended e e') (hs : e.Sound) : e'.Sound := by
  cases h with
  | served hh hr => exact ⟨hr, hs.pending, hs.handle⟩
  | released => exact ⟨(sub_le _ _).trans hs.streams, hs.pending, hs.handle⟩
  | failed hid | drained hid => exact ⟨hs.streams, hs.pending, iff_of_false hid nofun⟩

end PoolEntry

namespace CircuitPool

variable {p p' p'' : CircuitPool Id} {c c' : Class} {l a b : List (PoolEntry Id)} {e : PoolEntry Id}
  {id : Id}

lemma setClass_self : p.setClass c (p.byClass c) = p := by
  unfold setClass
  rw [update_eq_self]

def ids (p : CircuitPool Id) (c : Class) : List Id := (p.byClass c).filterMap PoolEntry.id

lemma ids_setClass_perm (h : (l.filterMap PoolEntry.id).Perm (p.ids c)) (c' : Class) :
    ((p.setClass c l).ids c').Perm (p.ids c') :=
  (forall_update_iff p.byClass fun c l => (l.filterMap PoolEntry.id).Perm (p.ids c)).2
    ⟨h, fun _ _ => List.Perm.refl _⟩ c'

/-- The entries of a class are within the policy. -/
structure Fits (policy : PoolPolicy) (c : Class) (l : List (PoolEntry Id)) : Prop where
  length : l.length ≤ (policy.maxFor c).toNat
  pending : l.countP PoolEntry.isBuilding ≤ policy.maxPendingBuildsPerClass.toNat
  sound : ∀ e ∈ l, e.Sound

def Tidy (p : CircuitPool Id) : Prop := ∀ c, Fits p.policy c (p.byClass c)

lemma Tidy.setClass (h : p.Tidy) (hl : Fits p.policy c l) : (p.setClass c l).Tidy :=
  (forall_update_iff p.byClass fun c l => Fits p.policy c l).2 ⟨hl, fun c' _ => h c'⟩

variable {l' : List (PoolEntry Id)}

lemma Fits.of_sublist (h : Fits policy c l) (hs : l'.Sublist l) : Fits policy c l' :=
  ⟨hs.length_le.trans h.length, hs.countP_le.trans h.pending, fun e he => h.sound e (hs.subset he)⟩

lemma Fits.of_perm (h : Fits policy c l) (hp : l'.Perm l) : Fits policy c l' :=
  ⟨hp.length_eq.trans_le h.length, (hp.countP_eq _).trans_le h.pending,
    fun e he => h.sound e (hp.subset he)⟩

lemma Fits.replace {e' : PoolEntry Id} (h : Fits policy c (a ++ e :: b)) (hs : e'.Sound)
    (hb : e'.isBuilding = true → e.isBuilding = true) : Fits policy c (a ++ e' :: b) := by
  refine ⟨?_, ?_, fun x hx => ?_⟩
  · have hl := h.length
    simpa using hl
  · refine le_trans ?_ h.pending
    rw [countP_append, countP_append, countP_cons, countP_cons]
    by_cases he : e'.isBuilding = true
    · rw [if_pos he, if_pos (hb he)]
    · rw [if_neg he]
      omega
  · rcases mem_append.1 hx with hx | hx
    · exact h.sound x (mem_append_left _ hx)
    · rcases mem_cons.1 hx with rfl | hx
      · exact hs
      · exact h.sound x (mem_append_right _ (mem_cons_of_mem _ hx))

lemma Tidy.toNat_totalCount (h : p.Tidy) : (p.totalCount c).toNat = (p.byClass c).length :=
  UInt32.toNat_ofNat_of_lt' ((h c).length.trans_lt (UInt32.toNat_lt _))

lemma Tidy.toNat_pendingCount (h : p.Tidy) :
    (p.pendingCount c).toNat = (p.byClass c).countP isBuilding :=
  UInt32.toNat_ofNat_of_lt' ((h c).pending.trans_lt (UInt32.toNat_lt _))

lemma takeHealthy_cases : ∀ {l : List (PoolEntry Id)}, (∀ e ∈ l, e.Sound) →
    takeHealthy l = (none, l) ∨
      ∃ a e b id, l = a ++ e :: b ∧ e.state = .healthy ∧ e.streams < e.profile.maxStreams ∧
        e.id = some id ∧ takeHealthy l = (some id, a ++ { e with streams := e.streams + 1 } :: b)
  | [], _ => .inl rfl
  | e :: l, h => by
    unfold takeHealthy
    split_ifs with he
    · split
      · next id hid => exact .inr ⟨[], e, l, id, rfl, he.1, he.2, hid, rfl⟩
      · next hid =>
        have hb := (h e mem_cons_self).handle.1 hid
        rw [he.1] at hb
        cases hb
    · rcases takeHealthy_cases fun x hx => h x (mem_cons_of_mem _ hx) with
        hn | ⟨a, x, b, id, hl, hh, hr, hid, ht⟩
      · rw [hn]
        exact .inl rfl
      · rw [ht, hl]
        exact .inr ⟨e :: a, x, b, id, rfl, hh, hr, hid, rfl⟩

lemma of_chosen {hash : UInt64} {i : ℕ} (hi : chosen hash l = some i) (he : l[i]? = some e) :
    e.state = .healthy ∧ ∀ e', ∃ a b, l = a ++ e :: b ∧ l.set i e' = a ++ e' :: b := by
  have hm := mem_of_getElem? hi
  simp only [mem_filter, he, Option.any_some, isHealthy, decide_eq_true_eq] at hm
  refine ⟨hm.2, fun e' => ⟨l.take i, l.drop (i + 1), ?_, ?_⟩⟩
  · obtain ⟨hlt, rfl⟩ := List.getElem?_eq_some_iff.1 he
    rw [getElem_cons_drop, take_append_drop]
  · have hlt := (List.getElem?_eq_some_iff.1 he).1
    rw [set_eq_take_append_cons_drop, if_pos hlt]

variable [DecidableEq Id]

inductive Note (Id : Type*)
  | quiet
  | reserved (c : Class)
  | started (c : Class) (n : ℕ)
  | built (id : Id) (c : Class) (n : ℕ)
  | lost (c : Class)
  | removed (c : Class) (id : Id)

/-- One change of the pool, with a note of it. -/
inductive Change (p : CircuitPool Id) : Note Id → CircuitPool Id → Prop
  | tend {c : Class} {a b : List (PoolEntry Id)} {e e' : PoolEntry Id}
    (hl : p.byClass c = a ++ e :: b) (h : e.Tended e') :
    Change p .quiet (p.setClass c (a ++ e' :: b))
  | reserve {c : Class} {a b : List (PoolEntry Id)} {e : PoolEntry Id}
    (hl : p.byClass c = a ++ e :: b) (hb : e.state = .building)
    (hroom : e.pendingStreams < e.profile.maxStreams) :
    Change p (.reserved c)
      (p.setClass c (a ++ { e with pendingStreams := e.pendingStreams + 1 } :: b))
  | start {c : Class} {picker : Picker} {now n : ℕ}
    (hlen : (p.byClass c).length < (p.policy.maxFor c).toNat)
    (hpend : (p.byClass c).countP PoolEntry.isBuilding < p.policy.maxPendingBuildsPerClass.toNat)
    (hn : n ≤ 1) :
    Change p (.started c n) (p.insertBuilding picker c c.defaultProfile now n)
  | build {c : Class} {a b : List (PoolEntry Id)} {e : PoolEntry Id} {id : Id} {now : ℕ}
    (hl : p.byClass c = a ++ e :: b) (hb : e.state = .building) (hid : e.id = none)
    (hfirst : ∀ x ∈ a, (decide (x.state = .building) && x.id.isNone) = false) :
    Change p (.built id c e.pendingStreams)
      { p.setClass c (a ++ { e with
          id := some id
          state := .healthy
          stateEntered := now
          builtAt := some now
          streams := e.pendingStreams
          pendingStreams := 0 } :: b) with
        idIndex := p.idIndex.insert id c }
  | lose {c : Class} {a b : List (PoolEntry Id)} {e : PoolEntry Id}
    (hl : p.byClass c = a ++ e :: b) (hb : e.state = .building) (hid : e.id = none)
    (hfirst : ∀ x ∈ a, (decide (x.state = .building) && x.id.isNone) = false) :
    Change p (.lost c) (p.setClass c (a ++ closeGap b))
  | remove {c : Class} {id : Id} : Change p (.removed c id) (p.removeEntry c id)
  | clear {c : Class} : Change p .quiet (p.dropIdlessFailed c)

inductive Changes : CircuitPool Id → List (Note Id) → CircuitPool Id → Prop
  | nil {p : CircuitPool Id} : Changes p [] p
  | cons {p p' p'' : CircuitPool Id} {n : Note Id} {ns : List (Note Id)} (h : Change p n p')
    (hs : Changes p' ns p'') : Changes p (n :: ns) p''

variable {n : Note Id}

lemma Change.single (h : Change p n p') : Changes p [n] p' := .cons h .nil

variable {N : Note Id → Prop}

lemma Change.noted (h : Change p n p') (hn : N n) : ∃ ns, Changes p ns p' ∧ ∀ m ∈ ns, N m := by
  refine ⟨[n], h.single, fun m hm => ?_⟩
  rw [mem_singleton.1 hm]
  exact hn

variable {ns : List (Note Id)}

lemma Changes.append {ms : List (Note Id)} (h : Changes p ns p') (h' : Changes p' ms p'') :
    Changes p (ns ++ ms) p'' := by
  induction h with
  | nil => exact h'
  | cons hc _ ih => exact .cons hc (ih h')

lemma Tidy.change (h : p.Tidy) (hc : Change p n p') : p'.Tidy := by
  cases hc with
  | @tend c a b e e' hl ht =>
    have hf := h c
    rw [hl] at hf
    have he := hf.sound e (by simp)
    exact h.setClass (hf.replace (ht.sound he) fun hb => (ht.isBuilding_eq he).symm.trans hb)
  | @reserve c a b e hl hb hr =>
    have hf := h c
    rw [hl] at hf
    have he : e.Sound := hf.sound e (by simp)
    exact h.setClass (hf.replace ⟨he.streams, hr, he.handle⟩ id)
  | @start c picker now n hln hp hn =>
    refine h.setClass ⟨?_, ?_, fun x hx => ?_⟩
    · rw [length_append]
      exact hln
    · rw [countP_append]
      exact hp
    · rcases mem_append.1 hx with hx | hx
      · exact (h c).sound x hx
      · obtain rfl := mem_singleton.1 hx
        exact ⟨zero_le _, hn.trans c.one_le_maxStreams, iff_of_true rfl rfl⟩
  | @build c a b e id now hl hb hid hfr =>
    have hf := h c
    rw [hl] at hf
    have he : e.Sound := hf.sound e (by simp)
    exact h.setClass (hf.replace ⟨he.pending, zero_le _, iff_of_false nofun nofun⟩ nofun)
  | @lose c a b e hl hb hid hfr =>
    have hf := h c
    rw [hl] at hf
    have hs : (a ++ b).Sublist (a ++ e :: b) := (sublist_cons_self e b).append_left a
    exact h.setClass ((hf.of_sublist hs).of_perm ((closeGap_perm b).append_left a))
  | @remove c id | @clear c => exact h.setClass ((h c).of_sublist filter_sublist)

lemma Tidy.changes (h : p.Tidy) (hc : Changes p ns p') : p'.Tidy := by
  induction hc with
  | nil => exact h
  | cons hc _ ih => exact ih (h.change hc)

lemma Changes.foldl {α : Type*} {f : CircuitPool Id → α → CircuitPool Id} :
    ∀ (l : List α) {p : CircuitPool Id}, p.Tidy →
      (∀ p, p.Tidy → ∀ x ∈ l, ∃ ns, Changes p ns (f p x) ∧ ∀ n ∈ ns, N n) →
      ∃ ns, Changes p ns (l.foldl f p) ∧ ∀ n ∈ ns, N n
  | [], _, _, _ => ⟨[], .nil, nofun⟩
  | x :: l, p, hp, h => by
    obtain ⟨ns, hns, hN⟩ := h p hp x mem_cons_self
    obtain ⟨ms, hms, hM⟩ := Changes.foldl l (hp.changes hns) fun p hp y hy =>
      h p hp y (mem_cons_of_mem _ hy)
    exact ⟨ns ++ ms, hns.append hms, forall_mem_append.2 ⟨hN, hM⟩⟩

lemma Change.lookup (h : Change p n p') (hl : p'.idIndex.lookup id = some c) :
    p.idIndex.lookup id = some c ∨ ∃ m, n = .built id c m := by
  cases h with
  | tend | reserve | start | lose | clear => exact .inl hl
  | @build c' a b e id' now =>
    rcases lookup_of_insert hl with ⟨rfl, rfl⟩ | ho
    · exact .inr ⟨_, rfl⟩
    · exact .inl ho
  | remove => exact .inl (lookup_of_erase hl)

def Note.Plain : Note Id → Prop
  | .built _ _ _ | .removed _ _ => False
  | _ => True

lemma Change.idIndex_eq (h : Change p n p') (hn : n.Plain) : p'.idIndex = p.idIndex := by
  cases h with
  | tend | reserve | start | lose | clear => rfl
  | build | remove => cases hn

lemma Changes.idIndex_eq (h : Changes p ns p') (hn : ∀ n ∈ ns, n.Plain) :
    p'.idIndex = p.idIndex := by
  induction h with
  | nil => rfl
  | cons hc _ ih =>
    rw [ih fun n hm => hn n (mem_cons_of_mem _ hm), hc.idIndex_eq (hn _ mem_cons_self)]

lemma Changes.lookup (h : Changes p ns p') (hl : p'.idIndex.lookup id = some c) :
    p.idIndex.lookup id = some c ∨ ∃ m, .built id c m ∈ ns := by
  induction h with
  | nil => exact .inl hl
  | cons hc _ ih =>
    rcases ih hl with hmd | ⟨m, hm⟩
    · rcases hc.lookup hmd with ho | ⟨m, rfl⟩
      · exact .inl ho
      · exact .inr ⟨m, mem_cons_self⟩
    · exact .inr ⟨m, mem_cons_of_mem _ hm⟩

/-- The index has the handles of every class. -/
structure Indexed (p : CircuitPool Id) : Prop where
  index : ∀ id c, p.idIndex.lookup id = some c ↔ id ∈ p.ids c
  nodup : ∀ c, (p.ids c).Nodup

lemma Indexed.of_perm (h : p.Indexed) (hid : p'.idIndex = p.idIndex)
    (hi : ∀ c, (p'.ids c).Perm (p.ids c)) : p'.Indexed where
  index id c := by rw [hid, h.index, (hi c).mem_iff]
  nodup c := (hi c).nodup_iff.2 (h.nodup c)

/-- A new circuit has a new handle, and one is removed where the index has it. -/
def Note.Allowed (p : CircuitPool Id) : Note Id → Prop
  | .built id _ _ => p.idIndex.lookup id = none
  | .removed c id => ∀ c', p.idIndex.lookup id = some c' → c' = c
  | _ => True

lemma Indexed.build (h : p.Indexed) (hl : p.byClass c = a ++ e :: b) (hid : e.id = none)
    (hn : p.idIndex.lookup id = none) {e' : PoolEntry Id} (he' : e'.id = some id) :
    Indexed { p.setClass c (a ++ e' :: b) with idIndex := p.idIndex.insert id c } := by
  have hi : p.ids c = a.filterMap PoolEntry.id ++ b.filterMap PoolEntry.id := by
    unfold ids
    rw [hl, filterMap_append, filterMap_cons_none hid]
  have hi' : (a ++ e' :: b).filterMap PoolEntry.id =
      a.filterMap PoolEntry.id ++ id :: b.filterMap PoolEntry.id := by
    rw [filterMap_append, filterMap_cons_some he']
  have hp : ((a ++ e' :: b).filterMap PoolEntry.id).Perm (id :: p.ids c) := by
    rw [hi', hi]
    exact perm_middle
  have hf : ∀ c', id ∉ p.ids c' := fun c' hm => by
    rw [(h.index id c').2 hm] at hn
    cases hn
  constructor
  · intro id' c'
    change (p.idIndex.insert id c).lookup id' = some c' ↔
      id' ∈ (update p.byClass c (a ++ e' :: b) c').filterMap PoolEntry.id
    rw [lookup_insert_eq_ite]
    by_cases hc : c' = c
    · subst hc
      rw [update_self, hp.mem_iff, mem_cons]
      split_ifs with heq
      · simp [heq]
      · rw [h.index]
        simp [heq]
    · rw [update_of_ne hc]
      split_ifs with heq
      · subst heq
        refine iff_of_false (fun hs => hc (Option.some.inj hs).symm) (hf c')
      · exact h.index id' c'
  · refine (forall_update_iff p.byClass fun _ l => (l.filterMap PoolEntry.id).Nodup).2
      ⟨hp.nodup_iff.2 (nodup_cons.2 ⟨hf c, h.nodup c⟩), fun c' _ => h.nodup c'⟩

lemma Indexed.remove (h : p.Indexed) (hc : ∀ c', p.idIndex.lookup id = some c' → c' = c) :
    (p.removeEntry c id).Indexed := by
  have hi : ((p.byClass c).filter fun e => e.id ≠ some id).filterMap PoolEntry.id =
      (p.ids c).filter (· ≠ id) := by
    unfold ids
    rw [filterMap_filter, filter_filterMap]
    refine filterMap_congr fun e _ => ?_
    cases he : e.id with
    | none => simp
    | some id' => by_cases heq : id' = id <;> simp [heq, Option.filter]
  constructor
  · intro id' c'
    change (p.idIndex.erase id).lookup id' = some c' ↔
      id' ∈ (update p.byClass c _ c').filterMap PoolEntry.id
    rw [lookup_erase_eq_ite]
    by_cases hcc : c' = c
    · subst hcc
      rw [update_self, hi, mem_filter]
      split_ifs with heq
      · simp [heq]
      · rw [h.index]
        simp [heq]
    · rw [update_of_ne hcc]
      split_ifs with heq
      · subst heq
        refine iff_of_false nofun fun hm => hcc (hc c' ((h.index _ c').2 hm))
      · exact h.index id' c'
  · refine (forall_update_iff p.byClass fun _ l => (l.filterMap PoolEntry.id).Nodup).2
      ⟨?_, fun c' _ => h.nodup c'⟩
    rw [hi]
    exact (h.nodup c).filter _

lemma Indexed.change (h : p.Indexed) (hc : Change p n p') (hn : n.Allowed p) : p'.Indexed := by
  have hs : ∀ {c : Class} {a b : List (PoolEntry Id)} {e e' : PoolEntry Id},
      p.byClass c = a ++ e :: b → e'.id = e.id →
      ((a ++ e' :: b).filterMap PoolEntry.id).Perm (p.ids c) := by
    intro c a b e e' hl hid
    unfold ids
    rw [hl]
    simp only [filterMap_append, filterMap_cons, hid]
    exact List.Perm.refl _
  cases hc with
  | tend hl ht => exact h.of_perm rfl (ids_setClass_perm (hs hl ht.id_eq))
  | reserve hl => exact h.of_perm rfl (ids_setClass_perm (hs hl rfl))
  | start =>
    refine h.of_perm rfl (ids_setClass_perm ?_)
    simp [ids]
  | build hl hb hid => exact h.build hl hid hn rfl
  | @lose c a b e hl hb hid =>
    refine h.of_perm rfl (ids_setClass_perm ?_)
    unfold ids
    rw [hl, filterMap_append, filterMap_append, filterMap_cons_none hid]
    exact ((closeGap_perm b).filterMap _).append_left _
  | remove => exact h.remove hn
  | @clear c =>
    refine h.of_perm rfl (ids_setClass_perm ?_)
    rw [filterMap_filter]
    refine List.Perm.of_eq (filterMap_congr fun e _ => ?_)
    cases he : e.id <;> simp [idlessFailed, he]

lemma Indexed.changes (hc : Changes p ns p') (h : p.Indexed)
    (hn : ∀ n ∈ ns, n.Allowed p) (hb : ∀ id c m, .built id c m ∉ ns) : p'.Indexed := by
  induction hc with
  | nil => exact h
  | @cons p p₁ p'' n ns hc _ ih =>
    refine ih (h.change hc (hn n mem_cons_self)) (fun m hm => ?_)
      fun id c k hk => hb id c k (mem_cons_of_mem _ hk)
    have ha := hn m (mem_cons_of_mem _ hm)
    cases m with
    | quiet | reserved | started | lost => trivial
    | built id c k => exact absurd (mem_cons_of_mem _ hm) (hb id c k)
    | removed c id =>
      intro c' hl
      rcases hc.lookup hl with ho | ⟨k, rfl⟩
      · exact ha c' ho
      · exact absurd mem_cons_self (hb id c' k)

def Healthy (p : CircuitPool Id) (c : Class) (id : Id) : Prop :=
  ∃ e ∈ p.byClass c, e.id = some id ∧ e.state = .healthy

def notes (c : Class) : Except PoolError (AcquireOutcome Id) → List (Note Id)
  | .ok (.ready _) => [.quiet]
  | .ok .pending => [.reserved c]
  | .ok (.buildFirst _) => [.started c 1]
  | .error _ => []

/-- The pool has changed as noted, and a circuit that is given out is healthy. -/
def Acquired (p : CircuitPool Id) (c : Class)
    (r : Except PoolError (AcquireOutcome Id) × CircuitPool Id) : Prop :=
  Changes p (notes c r.1) r.2 ∧ ∀ id, r.1 = .ok (.ready id) → p.Healthy c id

lemma Acquired.serve (hl : p.byClass c = a ++ e :: b) (hh : e.state = .healthy)
    (hr : e.streams < e.profile.maxStreams) (hid : e.id = some id) :
    p.Acquired c
      (.ok (.ready id), p.setClass c (a ++ { e with streams := e.streams + 1 } :: b)) := by
  refine ⟨(Change.tend hl (.served hh hr)).single, fun id' heq => ?_⟩
  cases heq
  exact ⟨e, by simp [hl], hid, hh⟩

lemma acquire_spec (h : p.Tidy) (picker : Picker) (c : Class) (now : ℕ) :
    p.Acquired c (p.acquire picker c now) := by
  unfold acquire
  rcases takeHealthy_cases (h c).sound with
    hn | ⟨a, e, b, id, hl, hh, hr, hid, htk⟩
  · rw [hn]
    simp only [setClass_self]
    split
    · next before e after hs =>
      obtain ⟨hl, he, -⟩ := splitFirst_eq_some hs
      simp only [Bool.and_eq_true, decide_eq_true_eq] at he
      exact ⟨(Change.reserve hl he.1 he.2).single, nofun⟩
    · split_ifs with ht hp
      · exact ⟨.nil, nofun⟩
      · exact ⟨.nil, nofun⟩
      · rw [UInt32.le_iff_toNat_le, h.toNat_totalCount, not_le] at ht
        rw [UInt32.le_iff_toNat_le, h.toNat_pendingCount, not_le] at hp
        exact ⟨(Change.start ht hp (le_refl _)).single, nofun⟩
  · rw [htk]
    exact .serve hl hh hr hid

lemma acquireForDomain_spec (h : p.Tidy) (keyed : Bytes32 → Bytes → Bytes32)
    (picker : Picker) (c : Class) (domain : String) (salt : Vector UInt8 16) (now : ℕ) :
    p.Acquired c (p.acquireForDomain keyed picker c domain salt now) := by
  have ha := acquire_spec h picker c now
  unfold acquireForDomain
  dsimp only
  split
  · exact ha
  · next i hi =>
    split
    · exact ha
    · next e he =>
      obtain ⟨hh, hs⟩ := of_chosen hi he
      split_ifs with hr
      · obtain ⟨a, b, hl, hl'⟩ := hs { e with streams := e.streams + 1 }
        split
        · next id hid =>
          rw [hl']
          exact .serve hl hh hr hid
        · next hid =>
          have hb := ((h c).sound e (by simp [hl])).handle.1 hid
          rw [hh] at hb
          cases hb
      · exact ha

variable (p)

lemma recordBuilt_spec (id : Id) (c : Class) (now : ℕ) :
    (p.recordBuilt id c now = (.error (.noPendingBuild c), p) ∧
        ∀ e ∈ p.byClass c, (decide (e.state = .building) && e.id.isNone) = false) ∨
      ∃ n, (p.recordBuilt id c now).1 = .ok n ∧
        Change p (.built id c n) (p.recordBuilt id c now).2 := by
  unfold recordBuilt
  split
  · next hn => exact .inl ⟨rfl, splitFirst_eq_none hn⟩
  · next before e after hs =>
    obtain ⟨hl, he, hf⟩ := splitFirst_eq_some hs
    simp only [Bool.and_eq_true, decide_eq_true_eq, Option.isNone_iff_eq_none] at he
    exact .inr ⟨_, rfl, .build hl he.1 he.2 hf⟩

lemma recordBuildFailure_spec (c : Class) :
    (p.recordBuildFailure c = (.error (.noPendingBuild c), p) ∧
        ∀ e ∈ p.byClass c, (decide (e.state = .building) && e.id.isNone) = false) ∨
      Change p (.lost c) (p.recordBuildFailure c).2 := by
  unfold recordBuildFailure
  split
  · next hn => exact .inl ⟨rfl, splitFirst_eq_none hn⟩
  · next before e after hs =>
    obtain ⟨hl, he, hf⟩ := splitFirst_eq_some hs
    simp only [Bool.and_eq_true, decide_eq_true_eq, Option.isNone_iff_eq_none] at he
    exact .inr (.lose hl he.1 he.2 hf)

lemma onEntry_spec (id : Id) {f : PoolEntry Id → PoolEntry Id}
    (hf : ∀ e : PoolEntry Id, e.id ≠ none → e.Tended (f e)) :
    (p.onEntry id f).2 = p ∨ Change p .quiet (p.onEntry id f).2 := by
  unfold onEntry
  split
  · exact .inl rfl
  split
  · exact .inl rfl
  · next before e after hs =>
    obtain ⟨hl, he, -⟩ := splitFirst_eq_some hs
    simp only [decide_eq_true_eq] at he
    exact .inr (.tend hl (hf e (by simp [he])))

lemma release_spec (id : Id) : (p.release id).2 = p ∨ Change p .quiet (p.release id).2 :=
  p.onEntry_spec id fun _ _ => .released

lemma recordFailure_spec (id : Id) :
    (p.recordFailure id).2 = p ∨ Change p .quiet (p.recordFailure id).2 :=
  p.onEntry_spec id fun _ hid => .failed hid

variable {p}

def Idle (p : CircuitPool Id) (c : Class) (id : Id) : Prop :=
  ∃ e ∈ p.byClass c, e.id = some id ∧ (e.state ≠ .failed → e.streams = 0)

/-- What a sweep may do. -/
inductive Swept (p : CircuitPool Id) : Note Id → Prop
  | quiet : Swept p .quiet
  | started (c : Class) : Swept p (.started c 0)
  | removed {c : Class} {id : Id} (h : p.Idle c id) : Swept p (.removed c id)

variable {now : ℕ}

omit [DecidableEq Id] in
lemma idle_of_collect (h : (c, id) ∈ p.collect order (toRetire · now)) : p.Idle c id := by
  simp only [collect, mem_flatMap, mem_filterMap, Option.map_eq_some_iff, Prod.mk.injEq] at h
  obtain ⟨c', -, e, he, id', hr, rfl, rfl⟩ := h
  unfold toRetire at hr
  split at hr
  · next hs =>
    split_ifs at hr with hi
    exact ⟨e, he, hr, fun _ => hi.1⟩
  · next hs => exact ⟨e, he, hr, fun hne => absurd hs hne⟩
  · cases hr

lemma sweep_spec (h : p.Tidy) (now : ℕ) :
    ∃ ns, Changes p ns (p.sweep order now) ∧ ∀ n ∈ ns, p.Swept n := by
  obtain ⟨drains, hdn, hd⟩ := Changes.foldl (N := p.Swept)
    (f := fun p d => p.transitionToDraining d.1 d.2 now)
    (p.collect order (toDrain · now)) h fun q _ d _ => by
      unfold transitionToDraining
      split
      · exact ⟨[], .nil, nofun⟩
      · next before e after hs =>
        obtain ⟨hl, he, -⟩ := splitFirst_eq_some hs
        simp only [decide_eq_true_eq] at he
        exact (Change.tend hl (.drained (by simp [he]))).noted .quiet
  obtain ⟨removals, hrm, hr⟩ := Changes.foldl (N := p.Swept)
    (p.collect order (toRetire · now)) (h.changes hdn) fun q _ d hd =>
      Change.remove.noted (.removed (idle_of_collect hd))
  obtain ⟨clears, hcl, hc⟩ := Changes.foldl (N := p.Swept)
    (order.filter fun c => (p.byClass c).any idlessFailed)
    ((h.changes hdn).changes hrm) fun q _ c _ => Change.clear.noted .quiet
  exact ⟨_, (hdn.append hrm).append hcl, forall_mem_append.2 ⟨forall_mem_append.2 ⟨hd, hr⟩, hc⟩⟩

omit [DecidableEq Id] in
lemma policy_insertBuildings (picker : Picker) (now n : ℕ) :
    (p.insertBuildings picker c now n).policy = p.policy := by
  induction n with
  | zero => rfl
  | succ n ih => exact ih

omit [DecidableEq Id] in
lemma counts_insertBuildings (p : CircuitPool Id) (picker : Picker) (c : Class) (now n : ℕ) :
    ((p.insertBuildings picker c now n).byClass c).length = (p.byClass c).length + n ∧
      ((p.insertBuildings picker c now n).byClass c).countP isBuilding =
        (p.byClass c).countP isBuilding + n := by
  induction n with
  | zero => exact ⟨rfl, rfl⟩
  | succ n ih =>
    simp only [insertBuildings, insertBuilding, setClass, update_self]
    rw [length_append, countP_append, ih.1, ih.2]
    exact ⟨rfl, rfl⟩

lemma insertBuildings_spec (p : CircuitPool Id) (picker : Picker) (c : Class) (now : ℕ) :
    ∀ {n : ℕ}, (p.byClass c).length + n ≤ (p.policy.maxFor c).toNat →
      (p.byClass c).countP isBuilding + n ≤ p.policy.maxPendingBuildsPerClass.toNat →
      Changes p (replicate n (.started c 0)) (p.insertBuildings picker c now n)
  | 0, _, _ => .nil
  | n + 1, hln, hp => by
    obtain ⟨hl, hb⟩ := p.counts_insertBuildings picker c now n
    rw [replicate_succ']
    refine (insertBuildings_spec p picker c now (by omega) (by omega)).append
      (Change.start ?_ ?_ (zero_le _)).single
    · rw [policy_insertBuildings, hl]
      exact hln
    · rw [policy_insertBuildings, hb]
      exact hp

omit [DecidableEq Id] in
lemma Tidy.toRequest_le (h : p.Tidy) :
    (p.byClass c).length + p.toRequest c ≤ (p.policy.maxFor c).toNat ∧
      (p.byClass c).countP isBuilding + p.toRequest c ≤
        p.policy.maxPendingBuildsPerClass.toNat := by
  have hl := (h c).length
  have hp := (h c).pending
  have ht : p.toRequest c ≤ (satSub (p.policy.maxFor c) (p.totalCount c)).toNat :=
    (min_le_left _ _).trans (min_le_right _ _)
  have hc : p.toRequest c ≤
      (satSub p.policy.maxPendingBuildsPerClass (p.pendingCount c)).toNat :=
    min_le_right _ _
  rw [toNat_satSub, h.toNat_totalCount] at ht
  rw [toNat_satSub, h.toNat_pendingCount] at hc
  omega

def raise (picker : Picker) (now : ℕ) (p : CircuitPool Id) (c : Class) : CircuitPool Id :=
  (floor picker now ([], p) c).2

lemma raise_spec (h : p.Tidy) (picker : Picker) (now : ℕ) :
    ∃ ns, Changes p ns (p.raise picker now c) ∧ ∀ n ∈ ns, ∃ c, n = .started c 0 := by
  unfold raise floor
  split_ifs with hm
  · exact ⟨[], .nil, nofun⟩
  · exact ⟨_, p.insertBuildings_spec picker c now h.toRequest_le.1 h.toRequest_le.2,
      fun n hn => ⟨c, eq_of_mem_replicate hn⟩⟩

lemma raises_spec (h : p.Tidy) (picker : Picker) (now : ℕ) (l : List Class) :
    ∃ ns, Changes p ns (l.foldl (raise picker now) p) ∧ ∀ n ∈ ns, ∃ c, n = .started c 0 :=
  Changes.foldl l h fun _ hp _ _ => raise_spec hp picker now

omit [DecidableEq Id] in
lemma snd_foldl_floor (picker : Picker) (now : ℕ) :
    ∀ (l : List Class) (acc : List (PoolAction Id) × CircuitPool Id),
      (l.foldl (floor picker now) acc).2 = l.foldl (raise picker now) acc.2
  | [], _ => rfl
  | c :: l, acc => by
    have hf : (floor picker now acc c).2 = raise picker now acc.2 c := by
      unfold raise floor
      split_ifs <;> rfl
    rw [foldl_cons, foldl_cons, snd_foldl_floor, hf]

lemma snd_tick (picker : Picker) (now : ℕ) :
    (p.tick picker order now).2 = Class.all.foldl (raise picker now) (p.sweep order now) := by
  unfold tick
  rw [snd_foldl_floor]

lemma tick_spec (h : p.Tidy) (picker : Picker) (order : List Class) (now : ℕ) :
    ∃ ns, Changes p ns (p.tick picker order now).2 ∧ ∀ n ∈ ns, p.Swept n := by
  obtain ⟨ns, hns, hN⟩ := sweep_spec h now
  obtain ⟨ms, hms, hM⟩ := raises_spec (h.changes hns) picker now Class.all
  rw [snd_tick]
  refine ⟨ns ++ ms, hns.append hms, forall_mem_append.2 ⟨hN, fun n hn => ?_⟩⟩
  obtain ⟨c, rfl⟩ := hM n hn
  exact .started c

lemma retire_mem_iff {picker : Picker} : .retireCircuit id ∈ (p.tick picker order now).1 ↔
      id ∈ (p.collect order (toRetire · now)).map Prod.snd := by
  have hb : ∀ (l : List Class) (acc : List (PoolAction Id) × CircuitPool Id),
      .retireCircuit id ∈ (l.foldl (floor picker now) acc).1 → .retireCircuit id ∈ acc.1 := by
    intro l
    induction l with
    | nil => exact fun _ hm => hm
    | cons c l ih =>
      intro acc hm
      have hf := ih _ hm
      unfold floor at hf
      split_ifs at hf
      · exact hf
      · rcases mem_append.1 hf with ho | hn
        · exact ho
        · cases eq_of_mem_replicate hn
  unfold tick
  simp only [mem_append, mem_map]
  constructor
  · rintro ((⟨d, -, hd⟩ | ⟨d, hd, heq⟩) | hm)
    · cases hd
    · cases heq
      exact ⟨d, hd, rfl⟩
    · cases hb _ _ hm
  · rintro ⟨d, hd, rfl⟩
    exact .inl (.inr ⟨d, hd, rfl⟩)

lemma idle_of_retire {picker : Picker}
    (h : .retireCircuit id ∈ (p.tick picker order now).1) : ∃ c, p.Idle c id := by
  obtain ⟨d, hd, rfl⟩ := mem_map.1 (retire_mem_iff.1 h)
  exact ⟨d.1, idle_of_collect hd⟩

lemma idIndex_sweep (now : ℕ) : (p.sweep order now).idIndex =
      ((p.collect order (toRetire · now)).map Prod.snd).foldl (fun m a => m.erase a) p.idIndex := by
  have hd : ∀ (l : List (Class × Id)) (q : CircuitPool Id),
      (l.foldl (fun q d => q.transitionToDraining d.1 d.2 now) q).idIndex = q.idIndex := by
    intro l
    induction l with
    | nil => exact fun _ => rfl
    | cons d l ih =>
      intro q
      rw [foldl_cons, ih]
      unfold transitionToDraining
      split <;> rfl
  have hr : ∀ (l : List (Class × Id)) (q : CircuitPool Id),
      (l.foldl (fun q d => q.removeEntry d.1 d.2) q).idIndex =
        (l.map Prod.snd).foldl (fun m a => m.erase a) q.idIndex := by
    intro l
    induction l with
    | nil => exact fun _ => rfl
    | cons d l ih => exact fun q => ih _
  have hc : ∀ (l : List Class) (q : CircuitPool Id),
      (l.foldl (fun q c => q.dropIdlessFailed c) q).idIndex = q.idIndex := by
    intro l
    induction l with
    | nil => exact fun _ => rfl
    | cons c l ih => exact fun q => ih _
  unfold sweep
  rw [hc, hr, hd]

lemma lookup_tick (h : p.Tidy) (picker : Picker) (order : List Class) (now : ℕ) (id : Id) :
    (p.tick picker order now).2.idIndex.lookup id =
      if .retireCircuit id ∈ (p.tick picker order now).1 then none else p.idIndex.lookup id := by
  obtain ⟨ns, hns, -⟩ := sweep_spec h now
  obtain ⟨ms, hms, hM⟩ := raises_spec (h.changes hns) picker now Class.all
  have hr : (p.tick picker order now).2.idIndex = (p.sweep order now).idIndex := by
    rw [snd_tick]
    refine hms.idIndex_eq fun n hn => ?_
    obtain ⟨c, rfl⟩ := hM n hn
    trivial
  rw [hr, idIndex_sweep, Maps.lookup_foldl_erase]
  simp only [retire_mem_iff]

def newId : PoolCall Id → Option Id
  | .recordBuilt id _ _ => some id
  | _ => none

structure Sound (p : CircuitPool Id) : Prop where
  tidy : p.Tidy
  indexed : p.Indexed

/-- A stream gets a healthy circuit, and only one without streams is retired. -/
def Serves (keyed : Bytes32 → Bytes → Bytes32) (p : CircuitPool Id) :
    PoolCall Id → Prop
  | .acquire picker c now => ∀ id, (p.acquire picker c now).1 = .ok (.ready id) → p.Healthy c id
  | .acquireForDomain picker c domain salt now => ∀ id,
    (p.acquireForDomain keyed picker c domain salt now).1 = .ok (.ready id) → p.Healthy c id
  | .tick picker order now => ∀ id,
    .retireCircuit id ∈ (p.tick picker order now).1 → ∃ c, p.Idle c id
  | _ => True

variable {keyed : Bytes32 → Bytes → Bytes32} {call : PoolCall Id}

lemma Tidy.serves (h : p.Tidy) : p.Serves keyed call := by
  cases call with
  | acquire picker c now => exact (acquire_spec h picker c now).2
  | acquireForDomain picker c domain salt now =>
    exact (acquireForDomain_spec h keyed picker c domain salt now).2
  | tick picker order now => exact fun _ hm => idle_of_retire hm
  | recordBuilt | recordBuildFailure | release | recordFailure => trivial

/-- What a call may do. -/
def Expected (p : CircuitPool Id) (call : PoolCall Id) : Note Id → Prop
  | .built id _ _ => newId call = some id
  | .removed c id => p.Idle c id
  | _ => True

/-- A call is a list of changes, each with a note that the call may make. -/
lemma step_spec (h : p.Tidy) :
    ∃ ns, Changes p ns (p.step keyed call) ∧ ∀ n ∈ ns, p.Expected call n ∧
      (newId call = none → (∀ picker order now, call ≠ .tick picker order now) → n.Plain) := by
  have hs {p' : CircuitPool Id} {N : Note Id → Prop} (heq : p' = p) :
      ∃ ns, Changes p ns p' ∧ ∀ n ∈ ns, N n := heq ▸ ⟨[], .nil, nofun⟩
  have ha {c r} (hr : p.Acquired c r) :
      ∃ ns, Changes p ns r.2 ∧ ∀ n ∈ ns, p.Expected call n ∧
        (newId call = none → (∀ picker order now, call ≠ .tick picker order now) → n.Plain) := by
    obtain ⟨_ | (id | _ | profile), p'⟩ := r <;> refine ⟨_, hr.1, fun n hn => ?_⟩
    · cases hn
    all_goals
      cases mem_singleton.1 hn
      exact ⟨trivial, fun _ _ => trivial⟩
  cases call with
  | acquire picker c now => exact ha (acquire_spec h picker c now)
  | acquireForDomain picker c domain salt now =>
    exact ha (acquireForDomain_spec h keyed picker c domain salt now)
  | recordBuilt id c now =>
    rcases p.recordBuilt_spec id c now with ⟨heq, -⟩ | ⟨n, -, hc⟩
    · exact hs (congrArg Prod.snd heq)
    · exact hc.noted ⟨rfl, nofun⟩
  | recordBuildFailure c =>
    rcases p.recordBuildFailure_spec c with ⟨heq, -⟩ | hc
    · exact hs (congrArg Prod.snd heq)
    · exact hc.noted ⟨trivial, fun _ _ => trivial⟩
  | release id =>
    rcases p.release_spec id with heq | hc
    · exact hs heq
    · exact hc.noted ⟨trivial, fun _ _ => trivial⟩
  | recordFailure id =>
    rcases p.recordFailure_spec id with heq | hc
    · exact hs heq
    · exact hc.noted ⟨trivial, fun _ _ => trivial⟩
  | tick picker order now =>
    obtain ⟨ns, hns, hN⟩ := tick_spec h picker order now
    refine ⟨ns, hns, fun n hn => ⟨?_, fun _ hno => absurd rfl (hno picker order now)⟩⟩
    cases hN n hn with
    | quiet | started => trivial
    | removed hi => exact hi

lemma Tidy.step (h : p.Tidy) : (p.step keyed call).Tidy := by
  obtain ⟨ns, hns, -⟩ := step_spec h
  exact h.changes hns

/-- The circuit that is built has a handle that no other has. -/
def Fresh (p : CircuitPool Id) (call : PoolCall Id) : Prop :=
  ∀ id, newId call = some id → p.idIndex.lookup id = none

lemma Sound.step (h : p.Sound) (hf : p.Fresh call) : (p.step keyed call).Sound := by
  refine ⟨h.tidy.step, ?_⟩
  cases hid : newId call with
  | none =>
    obtain ⟨ns, hns, hN⟩ := step_spec h.tidy
    refine h.indexed.changes hns (fun n hn => ?_) fun id c m hm => ?_
    · cases n with
      | quiet | reserved | started | lost => trivial
      | built id c m =>
        have hnw : newId call = some id := (hN _ hn).1
        rw [hid] at hnw
        cases hnw
      | removed c id =>
        intro c' hl
        obtain ⟨e, he, hed, -⟩ : p.Idle c id := (hN _ hn).1
        have hc := (h.indexed.index id c).2 (mem_filterMap.2 ⟨e, he, hed⟩)
        exact Option.some.inj (hl.symm.trans hc)
    · have hnw : newId call = some id := (hN _ hm).1
      rw [hid] at hnw
      cases hnw
  | some id =>
    cases call with
    | recordBuilt id' c now =>
      change (p.recordBuilt id' c now).2.Indexed
      rcases p.recordBuilt_spec id' c now with ⟨heq, -⟩ | ⟨n, -, hc⟩
      · rw [heq]
        exact h.indexed
      · exact h.indexed.change hc (hf id' rfl)
    | acquire | acquireForDomain | recordBuildFailure | release | recordFailure | tick => cases hid

lemma idIndex_step (h : p.Tidy) (hnw : newId call = none)
    (ht : ∀ picker order now, call ≠ .tick picker order now) :
    (p.step keyed call).idIndex = p.idIndex := by
  obtain ⟨ns, hns, hN⟩ := step_spec h
  exact hns.idIndex_eq fun n hn => (hN n hn).2 hnw ht

lemma lookup_step (h : p.Tidy) (hl : (p.step keyed call).idIndex.lookup id = some c) :
    p.idIndex.lookup id = some c ∨ newId call = some id := by
  obtain ⟨ns, hns, hN⟩ := step_spec h
  rcases hns.lookup hl with ho | ⟨m, hm⟩
  · exact .inl ho
  · exact .inr (hN _ hm).1

lemma along_fresh : ∀ {p : CircuitPool Id} {calls : List (PoolCall Id)}, p.Tidy →
    (calls.filterMap newId).Nodup →
    (∀ id c, p.idIndex.lookup id = some c → id ∉ calls.filterMap newId) →
    Along (step keyed) Fresh p calls
  | _, [], _, _, _ => trivial
  | p, call :: calls, h, hn, ho => by
    refine ⟨fun id hid => ?_, along_fresh h.step ?_ fun id c hl hm => ?_⟩
    · cases hl : p.idIndex.lookup id with
      | none => rfl
      | some c => exact absurd (mem_filterMap.2 ⟨call, mem_cons_self, hid⟩) (ho id c hl)
    · exact hn.sublist ((sublist_cons_self call calls).filterMap _)
    · rcases lookup_step h hl with hl | hid
      · exact ho id c hl (((sublist_cons_self call calls).filterMap _).subset hm)
      · rw [filterMap_cons_some hid] at hn
        exact (nodup_cons.1 hn).1 hm

lemma sound_new : (new policy : CircuitPool Id).Sound where
  tidy _ := ⟨zero_le _, zero_le _, nofun⟩
  indexed := ⟨fun _ _ => iff_of_false nofun nofun, fun _ => nodup_nil⟩

/-- If handles are not shared, the pool keeps its policy and retires no circuit in use. -/
theorem pool_sound (keyed : Bytes32 → Bytes → Bytes32) (policy : PoolPolicy)
    (calls : List (PoolCall Id)) (h : (calls.filterMap newId).Nodup) :
    Along (step keyed) (fun p call => (p.step keyed call).Sound ∧ p.Serves keyed call)
      (new policy) calls :=
  along_of_inv (fun _ _ hp hf => hp.step hf)
    (fun _ _ hp hf => ⟨hp.step hf, hp.tidy.serves⟩) _ calls sound_new
    (along_fresh (sound_new).tidy h nofun)

def oneCircuit : List (PoolCall ℕ) :=
  [.tick (fun _ _ => 0) Class.all 0, .acquire (fun _ _ => 0) .interactive 1,
    .recordBuilt 7 .interactive 2, .acquire (fun _ _ => 0) .interactive 3, .release 7,
    .recordFailure 7, .tick (fun _ _ => 0) Class.all 4]

theorem pool_sound_oneCircuit : (oneCircuit.filterMap newId).Nodup ∧
      Along (step fun _ _ => Vector.replicate 32 0)
        (fun p call => (p.step (fun _ _ => Vector.replicate 32 0) call).Sound ∧
          p.Serves (fun _ _ => Vector.replicate 32 0) call) (new .default) oneCircuit :=
  ⟨by decide, pool_sound _ .default oneCircuit (by decide)⟩

end CircuitPool

end Mirage.Router
