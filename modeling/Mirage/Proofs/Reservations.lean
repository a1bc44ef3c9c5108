import Mathlib.Data.List.GetD
import Mirage.Proofs.Pool

/-!
# Reserved streams

A stream that finds no circuit waits on a build. The pool takes the first build of a class,
whichever failed; `Ledger` keeps the books of the caller, who knows which.
-/

namespace Mirage.Router

open Slots Words Runs Function
open List hiding Vector

variable {Id : Type*}

namespace CircuitPool

variable {p p' : CircuitPool Id} {c : Class} {l : List (PoolEntry Id)}

def waitingOf (l : List (PoolEntry Id)) : List ℕ :=
  (l.filter PoolEntry.isBuilding).map PoolEntry.pendingStreams

def waiting (p : CircuitPool Id) (c : Class) : List ℕ := waitingOf (p.byClass c)

def queued (p : CircuitPool Id) (c : Class) : ℕ := (p.waiting c).sum

lemma waitingOf_append (a b : List (PoolEntry Id)) :
    waitingOf (a ++ b) = waitingOf a ++ waitingOf b := by
  unfold waitingOf
  rw [filter_append, map_append]

lemma waitingOf_cons_building {e : PoolEntry Id} (h : e.state = .building) :
    waitingOf (e :: l) = e.pendingStreams :: waitingOf l := by
  unfold waitingOf
  rw [filter_cons_of_pos (PoolEntry.isBuilding_iff.2 h), map_cons]

lemma waitingOf_cons_other {e : PoolEntry Id} (h : e.isBuilding = false) :
    waitingOf (e :: l) = waitingOf l := by
  unfold waitingOf
  rw [filter_cons_of_neg (by simp [h])]

lemma waitingOf_eq_nil (h : ∀ e ∈ l, e.isBuilding = false) : waitingOf l = [] := by
  unfold waitingOf
  rw [filter_eq_nil_iff.2 fun e he => by simp [h e he]]
  rfl

lemma waitingOf_filter {q : PoolEntry Id → Bool} (h : ∀ e ∈ l, e.isBuilding = true → q e = true) :
    waitingOf (l.filter q) = waitingOf l := by
  unfold waitingOf
  rw [filter_filter]
  congr 1
  refine filter_congr fun e he => ?_
  cases hb : e.isBuilding with
  | false => rfl
  | true => simp [h e he hb]

lemma waiting_setClass : (p.setClass c l).waiting = update p.waiting c (waitingOf l) :=
  comp_update waitingOf p.byClass c l

lemma waitingOf_before {a : List (PoolEntry Id)} (hs : ∀ e ∈ a, e.Sound)
    (hf : ∀ x ∈ a, (decide (x.state = .building) && x.id.isNone) = false) : waitingOf a = [] := by
  refine waitingOf_eq_nil fun e he => decide_eq_false fun hb => ?_
  have hn := hf e he
  rw [(hs e he).handle.2 hb] at hn
  simp [hb] at hn

variable [DecidableEq Id]

/-- The streams that wait on builds, before a note and after. -/
inductive Waits (w : Class → List ℕ) : Note Id → (Class → List ℕ) → Prop
  | quiet : Waits w .quiet w
  | removed {c : Class} {id : Id} : Waits w (.removed c id) w
  | reserved {c : Class} {a b : List ℕ} {k : ℕ} (hw : w c = a ++ k :: b) :
    Waits w (.reserved c) (Function.update w c (a ++ (k + 1) :: b))
  | started {c : Class} {k : ℕ} : Waits w (.started c k) (Function.update w c (w c ++ [k]))
  | built {c : Class} {id : Id} {k : ℕ} {rest : List ℕ} (hw : w c = k :: rest) :
    Waits w (.built id c k) (Function.update w c rest)
  | lost {c : Class} {k : ℕ} {rest rest' : List ℕ} (hw : w c = k :: rest)
    (hrest : rest'.Perm rest) : Waits w (.lost c) (Function.update w c rest')

lemma Change.waits {n : Note Id} (hc : Change p n p') (h : p.Tidy) :
    Waits p.waiting n p'.waiting := by
  cases hc with
  | @tend c a b e e' hl ht =>
    have he : e.Sound := (h c).sound e (by simp [hl])
    have hs : waitingOf (a ++ e' :: b) = p.waiting c := by
      unfold waiting
      rw [hl, waitingOf_append, waitingOf_append]
      unfold waitingOf
      rw [filter_cons, filter_cons, ht.isBuilding_eq he]
      split_ifs
      · rw [map_cons, map_cons, ht.pendingStreams_eq]
      · rfl
    rw [waiting_setClass, hs, update_eq_self]
    exact .quiet
  | @reserve c a b e hl hb hr =>
    have hw : p.waiting c = waitingOf a ++ e.pendingStreams :: waitingOf b := by
      unfold waiting
      rw [hl, waitingOf_append, waitingOf_cons_building hb]
    rw [waiting_setClass, waitingOf_append, waitingOf_cons_building (by exact hb)]
    exact .reserved hw
  | @start c picker now n hln hp hn =>
    have hw : (p.insertBuilding picker c c.defaultProfile now n).waiting =
        update p.waiting c (p.waiting c ++ [n]) := by
      refine waiting_setClass.trans ?_
      rw [waitingOf_append]
      rfl
    rw [hw]
    exact .started
  | @build c a b e id now hl hb hid hf =>
    have hbf := waitingOf_before (fun x hx => (h c).sound x (by simp [hl, hx])) hf
    have hw : p.waiting c = e.pendingStreams :: waitingOf b := by
      unfold waiting
      rw [hl, waitingOf_append, hbf, waitingOf_cons_building hb, nil_append]
    refine (congrArg (Waits p.waiting _) ?_).mp (.built hw)
    refine Eq.trans ?_ waiting_setClass.symm
    rw [waitingOf_append, hbf, waitingOf_cons_other rfl, nil_append]
  | @lose c a b e hl hb hid hf =>
    have hbf := waitingOf_before (fun x hx => (h c).sound x (by simp [hl, hx])) hf
    have hw : p.waiting c = e.pendingStreams :: waitingOf b := by
      unfold waiting
      rw [hl, waitingOf_append, hbf, waitingOf_cons_building hb, nil_append]
    rw [waiting_setClass, waitingOf_append, hbf, nil_append]
    exact .lost hw (((closeGap_perm b).filter _).map _)
  | @remove c id =>
    have hs : waitingOf ((p.byClass c).filter fun e => e.id ≠ some id) = p.waiting c := by
      refine waitingOf_filter fun e he hb => ?_
      have hid := ((h c).sound e he).handle.2 (PoolEntry.isBuilding_iff.1 hb)
      simp [hid]
    have hw : (p.removeEntry c id).waiting = p.waiting := by
      refine waiting_setClass.trans ?_
      rw [hs, update_eq_self]
    rw [hw]
    exact .removed
  | @clear c =>
    have hs : waitingOf ((p.byClass c).filter fun e => !e.idlessFailed) = p.waiting c := by
      refine waitingOf_filter fun e _ hb => ?_
      simp [PoolEntry.idlessFailed, PoolEntry.isBuilding_iff.1 hb]
    unfold dropIdlessFailed
    rw [waiting_setClass, hs, update_eq_self]
    exact .quiet

omit [DecidableEq Id] in
lemma sum_update (w : Class → List ℕ) (c c' : Class) (l : List ℕ) :
    (update w c l c').sum = if c' = c then l.sum else (w c').sum := by
  by_cases hc : c' = c
  · subst hc
    rw [update_self, if_pos rfl]
  · rw [update_of_ne hc, if_neg hc]

lemma Changes.queued_eq {ns : List (Note Id)} (hc : Changes p ns p') (h : p.Tidy)
    (p₀ : CircuitPool Id) (hns : ∀ n ∈ ns, p₀.Swept n) (c : Class) : p'.queued c = p.queued c := by
  induction hc with
  | nil => rfl
  | @cons p p₁ p'' n ns hc _ ih =>
    rw [ih (h.change hc) fun m hm => hns m (mem_cons_of_mem _ hm)]
    have hw := hc.waits h
    unfold queued
    generalize p₁.waiting = w at hw ⊢
    cases hns n mem_cons_self with
    | quiet | removed =>
      cases hw
      rfl
    | started c' =>
      cases hw
      rw [sum_update]
      split_ifs with hcc
      · rw [hcc, sum_append, sum_singleton, Nat.add_zero]
      · rfl

end CircuitPool

/-- The streams reserved in each class, those that got a circuit, and those of failed builds. -/
structure Ledger (Id : Type*) where
  pool : CircuitPool Id
  reserved : Class → ℕ
  activated : Class → ℕ
  told : Class → ℕ

namespace Ledger

def start (policy : PoolPolicy) : Ledger Id := ⟨.new policy, fun _ => 0, fun _ => 0, fun _ => 0⟩

def add (f : Class → ℕ) (c : Class) (n : ℕ) (c' : Class) : ℕ := if c' = c then f c' + n else f c'

def reserves : Except PoolError (AcquireOutcome Id) → ℕ
  | .ok .pending => 1
  | .ok (.buildFirst _) => 1
  | _ => 0

variable [DecidableEq Id]

/-- A call, and for a failure the place of its build, which the pool is not told. -/
abbrev Event (Id : Type*) := PoolCall Id × ℕ

def step (keyed : Bytes32 → Bytes → Bytes32) (l : Ledger Id) (ev : Event Id) : Ledger Id :=
  let pool := l.pool.step keyed ev.1
  match ev.1 with
  | .acquire picker c now =>
    { l with pool, reserved := add l.reserved c (reserves (l.pool.acquire picker c now).1) }
  | .acquireForDomain picker c domain salt now =>
    { l with
      pool
      reserved := add l.reserved c
        (reserves (l.pool.acquireForDomain keyed picker c domain salt now).1) }
  | .recordBuilt id c now =>
    { l with
      pool
      activated := add l.activated c ((l.pool.recordBuilt id c now).1.toOption.getD 0) }
  | .recordBuildFailure c =>
    { l with pool, told := add l.told c ((l.pool.waiting c).getD ev.2 0) }
  | _ => { l with pool }

/-- Every reserved stream waits, has its circuit, or was told. -/
def Balanced (l : Ledger Id) : Prop :=
  ∀ c, l.reserved c = l.pool.queued c + l.activated c + l.told c

/-- A failure leaves the streams of the other builds, and loses none while there are others. -/
def Spares (keyed : Bytes32 → Bytes → Bytes32) (l : Ledger Id) (ev : Event Id) : Prop :=
  match ev.1 with
  | .recordBuildFailure c =>
    ((l.step keyed ev).pool.waiting c).Perm ((l.pool.waiting c).eraseIdx ev.2) ∧
      ((l.step keyed ev).pool.waiting c ≠ [] → (l.step keyed ev).pool.queued c = l.pool.queued c)
  | _ => True

/-- What fails was not reported on, and is alone or has no stream on it or on the first. -/
def Calm (l : Ledger Id) (ev : Event Id) : Prop :=
  match ev.1 with
  | .recordBuildFailure c =>
    ev.2 < (l.pool.waiting c).length ∧
      (1 < (l.pool.waiting c).length →
        (l.pool.waiting c).getD 0 0 = 0 ∧ (l.pool.waiting c).getD ev.2 0 = 0)
  | _ => True

instance (l : Ledger Id) : DecidablePred l.Calm := fun _ => by
  unfold Calm
  split <;> infer_instance

variable {keyed : Bytes32 → Bytes → Bytes32} {l : Ledger Id} {ev : Event Id}
  {p p' : CircuitPool Id} {c : Class}

open CircuitPool

lemma queued_of_quiet (h : p.Tidy) (hc : p' = p ∨ Change p .quiet p') (c : Class) :
    p'.queued c = p.queued c := by
  rcases hc with rfl | hc
  · rfl
  · obtain ⟨ns, hns, hN⟩ := hc.noted (N := p.Swept) .quiet
    exact hns.queued_eq h p hN c

lemma queued_of_acquired {r : Except PoolError (AcquireOutcome Id) × CircuitPool Id} (h : p.Tidy)
    (hr : p.Acquired c r) (c' : Class) : r.2.queued c' = add p.queued c (reserves r.1) c' := by
  have hs : p.queued c' = add p.queued c 0 c' := by
    unfold add
    split_ifs <;> rfl
  obtain ⟨r, p'⟩ := r
  obtain ⟨hc, -⟩ := hr
  rcases r with err | (id | _ | profile)
  · cases hc
    exact hs
  · refine Eq.trans (hc.queued_eq h p (fun n hn => ?_) c') hs
    rw [mem_singleton.1 hn]
    exact .quiet
  · obtain _ | ⟨hc, ⟨⟩⟩ := hc
    have hw := hc.waits h
    unfold add queued
    generalize p'.waiting = w at hw ⊢
    obtain _ | _ | hw := hw
    rw [sum_update]
    split_ifs with hcc
    · change _ = _ + 1
      rw [hcc, hw, sum_append, sum_append, sum_cons, sum_cons]
      omega
    · rfl
  · obtain _ | ⟨hc, ⟨⟩⟩ := hc
    have hw := hc.waits h
    unfold add queued
    generalize p'.waiting = w at hw ⊢
    cases hw
    rw [sum_update]
    split_ifs with hcc
    · rw [hcc, sum_append, sum_singleton]
      rfl
    · rfl

lemma queued_of_recordBuilt (h : p.Tidy) (id : Id) (c : Class) (now : ℕ) (c' : Class) :
    p.queued c' = add (p.recordBuilt id c now).2.queued c
      ((p.recordBuilt id c now).1.toOption.getD 0) c' := by
  unfold add queued
  rcases p.recordBuilt_spec id c now with ⟨heq, -⟩ | ⟨n, hn, hc⟩
  · rw [heq]
    split_ifs <;> rfl
  have hw := hc.waits h
  rw [hn]
  generalize (p.recordBuilt id c now).2.waiting = w at hw ⊢
  cases hw with
  | built hw =>
    split_ifs with hcc
    · subst hcc
      rw [update_self, hw, sum_cons, Nat.add_comm]
      rfl
    · rw [update_of_ne hcc]

lemma waiting_recordBuildFailure (h : p.Tidy) (hc : 0 < (p.waiting c).length) :
    ∃ k rest rest', p.waiting c = k :: rest ∧ rest'.Perm rest ∧
      (p.recordBuildFailure c).2.waiting = update p.waiting c rest' := by
  rcases p.recordBuildFailure_spec c with ⟨-, hn⟩ | hl
  · rw [waiting, waitingOf_before (h c).sound hn] at hc
    exact absurd hc (Nat.lt_irrefl 0)
  have hw := hl.waits h
  generalize (p.recordBuildFailure c).2.waiting = w at hw ⊢
  cases hw with
  | lost hw hr => exact ⟨_, _, _, hw, hr, rfl⟩

lemma eraseIdx_perm_eraseIdx {w : List ℕ} {i j : ℕ} (hi : i < w.length) (hj : j < w.length)
    (h : w.getD i 0 = w.getD j 0) : (w.eraseIdx i).Perm (w.eraseIdx j) := by
  rw [getD_eq_getElem _ _ hi, getD_eq_getElem] at h
  refine List.Perm.cons_inv (a := w[i]) ?_
  refine (getElem_cons_eraseIdx_perm hi).trans ?_
  rw [h]
  exact (getElem_cons_eraseIdx_perm hj).symm

omit [DecidableEq Id] in
lemma Calm.getD_eq {i : ℕ} (h : l.Calm (.recordBuildFailure c, i)) :
    (l.pool.waiting c).getD 0 0 = (l.pool.waiting c).getD i 0 := by
  obtain ⟨hi, hm⟩ := h
  by_cases ho : 1 < (l.pool.waiting c).length
  · obtain ⟨hf, ht⟩ := hm ho
    exact hf.trans ht.symm
  · have hz : i = 0 := by omega
    rw [hz]

lemma Balanced.failure {i : ℕ} (h : l.Balanced) (ht : l.pool.Tidy)
    (hc : l.Calm (.recordBuildFailure c, i)) : (l.step keyed (.recordBuildFailure c, i)).Balanced ∧
      l.Spares keyed (.recordBuildFailure c, i) := by
  have hi : i < (l.pool.waiting c).length := hc.1
  obtain ⟨k, rest, rest', hw, hr, hw'⟩ := waiting_recordBuildFailure ht (Nat.zero_lt_of_lt hi)
  have hk : k = (l.pool.waiting c).getD i 0 := by
    rw [← hc.getD_eq, hw]
    rfl
  have hs : (l.pool.recordBuildFailure c).2.waiting c = rest' := by rw [hw', update_self]
  refine ⟨fun c' => ?_, ?_, fun hne => ?_⟩
  · change l.reserved c' = (l.pool.recordBuildFailure c).2.queued c' + l.activated c' +
      add l.told c ((l.pool.waiting c).getD i 0) c'
    have ho := h c'
    unfold add queued at *
    rw [hw', sum_update, ← hk]
    split_ifs with hcc
    · rw [hcc, hw, sum_cons] at ho
      rw [hcc, hr.sum_nat]
      omega
    · exact ho
  · change ((l.pool.recordBuildFailure c).2.waiting c).Perm _
    rw [hs]
    refine hr.trans ?_
    have hp := eraseIdx_perm_eraseIdx (Nat.zero_lt_of_lt hi) hi hc.getD_eq
    nth_rewrite 1 [hw] at hp
    exact hp
  · change (l.pool.recordBuildFailure c).2.waiting c ≠ [] at hne
    change ((l.pool.recordBuildFailure c).2.waiting c).sum = (l.pool.waiting c).sum
    rw [hs] at hne ⊢
    -- there are others, so that nobody waited on the first
    have hm : 1 < (l.pool.waiting c).length := by
      rw [hw, length_cons, ← hr.length_eq]
      exact Nat.succ_lt_succ (length_pos_iff.2 hne)
    have hz := (hc.2 hm).1
    rw [hw] at hz ⊢
    change k = 0 at hz
    rw [hr.sum_nat, sum_cons, hz, Nat.zero_add]

lemma Balanced.step (h : l.Balanced) (ht : l.pool.Tidy) (hc : l.Calm ev) :
    (l.step keyed ev).Balanced ∧ l.Spares keyed ev := by
  obtain ⟨call, i⟩ := ev
  have hs : ∀ {p' : CircuitPool Id}, (∀ c, p'.queued c = l.pool.queued c) →
      Balanced { l with pool := p' } := by
    intro p' hp c
    rw [hp]
    exact h c
  have ha : ∀ {c r}, l.pool.Acquired c r →
      Balanced { l with pool := r.2, reserved := add l.reserved c (reserves r.1) } := by
    intro c r hr c'
    have ho := h c'
    have hsm := queued_of_acquired ht hr c'
    change add l.reserved c (reserves r.1) c' = r.2.queued c' + l.activated c' + l.told c'
    unfold add at hsm ⊢
    split_ifs at hsm ⊢ <;> omega
  cases call with
  | acquire picker c now => exact ⟨ha (acquire_spec ht picker c now), trivial⟩
  | acquireForDomain picker c domain salt now =>
    exact ⟨ha (acquireForDomain_spec ht keyed picker c domain salt now), trivial⟩
  | recordBuilt id c now =>
    refine ⟨fun c' => ?_, trivial⟩
    have ho := h c'
    have hsm := queued_of_recordBuilt ht id c now c'
    change l.reserved c' = (l.pool.recordBuilt id c now).2.queued c' +
      add l.activated c ((l.pool.recordBuilt id c now).1.toOption.getD 0) c' + l.told c'
    unfold add at hsm ⊢
    split_ifs at hsm ⊢ <;> omega
  | recordBuildFailure c => exact h.failure ht hc
  | release id => exact ⟨hs (queued_of_quiet ht (l.pool.release_spec id)), trivial⟩
  | recordFailure id => exact ⟨hs (queued_of_quiet ht (l.pool.recordFailure_spec id)), trivial⟩
  | tick picker order now =>
    obtain ⟨ns, hns, hN⟩ := tick_spec ht picker order now
    exact ⟨hs fun c => hns.queued_eq ht l.pool hN c, trivial⟩

lemma pool_step : (l.step keyed ev).pool = l.pool.step keyed ev.1 := by
  unfold Ledger.step
  split <;> rfl

/-- If builds fail alone or without streams, the books balance. -/
theorem reservations_kept (keyed : Bytes32 → Bytes → Bytes32) (policy : PoolPolicy)
    (events : List (Event Id)) (h : Along (step keyed) Calm (start policy) events) :
    Along (step keyed) (fun l ev => (l.step keyed ev).Balanced ∧ l.Spares keyed ev)
      (start policy) events := by
  refine along_of_inv (I := fun l => l.Balanced ∧ l.pool.Tidy) (fun l ev hl hc => ?_)
    (fun l ev hl hc => hl.1.step hl.2 hc) _ events ⟨fun _ => rfl, (sound_new).tidy⟩ h
  refine ⟨(hl.1.step hl.2 hc).1, ?_⟩
  rw [pool_step]
  exact hl.2.step

def secondTry : List (Event ℕ) :=
  [(.acquire (fun _ _ => 0) .bulk 0, 0), (.acquire (fun _ _ => 0) .bulk 1, 0),
    (.recordBuildFailure .bulk, 0), (.acquire (fun _ _ => 0) .bulk 2, 0),
    (.recordBuilt 7 .bulk 3, 0)]

theorem reservations_kept_secondTry :
    Along (step fun _ _ => Vector.replicate 32 0) Calm (start .default) secondTry ∧
      Along (step fun _ _ => Vector.replicate 32 0)
        (fun l ev => (l.step (fun _ _ => Vector.replicate 32 0) ev).Balanced ∧
          l.Spares (fun _ _ => Vector.replicate 32 0) ev) (start .default) secondTry :=
  ⟨by decide +kernel, reservations_kept _ .default secondTry (by decide +kernel)⟩

/-- A stream waits on the first of three builds; the second fails, and it gets no circuit. -/
theorem failure_loses_streams :
    let events : List (Event ℕ) :=
      [(.tick (fun _ _ => 0) Class.all 0, 0), (.acquire (fun _ _ => 0) .interactive 1, 0),
        (.recordBuildFailure .interactive, 1), (.recordBuilt 7 .interactive 2, 0)]
    ¬ (run (step fun _ _ => Vector.replicate 32 0) (start .default) events).Balanced :=
  fun h => absurd (h .interactive) (by decide +kernel)

end Ledger

end Mirage.Router
