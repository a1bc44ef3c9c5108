import Mirage.Proofs.Pool
import Mirage.Runtime.Driver

/-!
# The pool and the registry

Every id that was taken is in one place at a time (`Life`), and the tables and the logs are read off
its life (`Tracks`).
-/

namespace Mirage.Runtime

open Router Router.CircuitPool Maps Runs Words Function PoolDriver Option Nat UInt64
open List hiding Vector

variable {H : Type*}

inductive Stage
  | registering
  | waiting
  | leaving

inductive Life (H : Type*)
  | unborn
  | task (i : ℕ) (s : Stage) (built : BuiltCircuit H)
  | pooled (built : BuiltCircuit H)
  | scheduled (built : BuiltCircuit H)
  | retiring (built : BuiltCircuit H)
  | gone (built : BuiltCircuit H)

namespace Life

def registered : Life H → Option (BuiltCircuit H)
  | .task _ .waiting built | .pooled built | .scheduled built => some built
  | _ => none

def inserted : Life H → Option (BuiltCircuit H)
  | .unborn | .task _ .registering _ => none
  | .task _ .waiting built | .task _ .leaving built => some built
  | .pooled built | .scheduled built | .retiring built | .gone built => some built

def destroyed : Life H → Option (BuiltCircuit H)
  | .gone built => some built
  | _ => none

end Life

namespace BuildTask

def id : BuildTask H → Option UInt64
  | .registering id _ _ | .recording id _ | .refused id | .destroying id _ => some id
  | .done | .selecting _ | .building _ | .failing _ => none

/-- The build that has a circuit at a stage of its life. -/
inductive Holds (id : UInt64) : Stage → BuiltCircuit H → BuildTask H → Prop
  | registering {c : Router.Class} {built : BuiltCircuit H} :
    Holds id .registering built (.registering id c built)
  | recording {c : Router.Class} {built : BuiltCircuit H} :
    Holds id .waiting built (.recording id c)
  | refused {built : BuiltCircuit H} : Holds id .waiting built (.refused id)
  | destroying {built : BuiltCircuit H} : Holds id .leaving built (.destroying id built)

lemma Holds.id_eq {id : UInt64} {s : Stage} {built : BuiltCircuit H} {t : BuildTask H}
    (h : Holds id s built t) : t.id = some id := by
  cases h <;> rfl

end BuildTask

open BuildTask

/-- The builds are those that the lives speak of. -/
structure Tasks (builds : ℕ → BuildTask H) (f : UInt64 → Life H) : Prop where
  holds : ∀ {i id s built}, f id = .task i s built → Holds id s built (builds i)
  task : ∀ {i id}, (builds i).id = some id → ∃ s built, f id = .task i s built

namespace Tasks

variable {builds : ℕ → BuildTask H} {f : UInt64 → Life H} {i : ℕ} {id : UInt64}

lemma holds_task (h : Tasks builds f) (hid : (builds i).id = some id) :
    ∃ s built, f id = .task i s built ∧ Holds id s built (builds i) := by
  obtain ⟨s, built, hl⟩ := h.task hid
  exact ⟨s, built, hl, h.holds hl⟩

variable {t : BuildTask H}

lemma idle (h : Tasks builds f) (hid : (builds i).id = none)
    (ht : t.id = none) : Tasks (update builds i t) f := by
  constructor
  · intro j id s built hl
    have ho := h.holds hl
    rcases eq_or_ne j i with rfl | hne
    · rw [ho.id_eq] at hid
      cases hid
    · rwa [update_of_ne hne]
  · intro j id hj
    rcases eq_or_ne j i with rfl | hne
    · rw [update_self, ht] at hj
      cases hj
    · rw [update_of_ne hne] at hj
      exact h.task hj

/-- No other build has the id. -/
def Free (f : UInt64 → Life H) (i : ℕ) (id : UInt64) : Prop :=
  ∀ j s built, f id = .task j s built → j = i

variable (h : Tasks builds f)

include h

lemma update (hid : ∀ id', (builds i).id = some id' → id' = id) (hf : Free f i id)
    {life : Life H} (hlf : ∀ j s built, life = .task j s built → j = i ∧ Holds id s built t)
    (ht : ∀ id', t.id = some id' → id' = id ∧ ∃ s built, life = .task i s built) :
    Tasks (update builds i t) (update f id life) := by
  constructor
  · intro j id' s built hl
    rcases eq_or_ne id' id with rfl | hne
    · rw [update_self] at hl
      obtain ⟨rfl, hh⟩ := hlf j s built hl
      rwa [update_self]
    · rw [update_of_ne hne] at hl
      have ho := h.holds hl
      rcases eq_or_ne j i with rfl | hj
      · exact absurd (hid id' ho.id_eq) hne
      · rwa [update_of_ne hj]
  · intro j id' hj
    rcases eq_or_ne j i with rfl | hne
    · rw [update_self] at hj
      obtain ⟨rfl, s, built, hl⟩ := ht id' hj
      exact ⟨s, built, by rwa [update_self]⟩
    · rw [update_of_ne hne] at hj
      obtain ⟨s, built, hl⟩ := h.task hj
      rcases eq_or_ne id' id with rfl | hi'
      · exact absurd (hf j s built hl) hne
      · exact ⟨s, built, by rwa [update_of_ne hi']⟩

variable {built : BuiltCircuit H}

lemma move (hid : ∀ id', (builds i).id = some id' → id' = id) (hf : Free f i id)
    {s : Stage} (ht : Holds id s built t) :
    Tasks (Function.update builds i t) (Function.update f id (.task i s built)) := by
  refine h.update hid hf (fun j s' built' hl => ?_) fun id' hi' => ?_
  · cases hl
    exact ⟨rfl, ht⟩
  · exact ⟨some.inj (hi'.symm.trans ht.id_eq), s, built, rfl⟩

lemma free (hid : (builds i).id = some id) : Free f i id := by
  obtain ⟨s, built, hl⟩ := h.task hid
  intro j s' built' hl'
  rw [hl] at hl'
  cases hl'
  rfl

lemma proceed (hid : (builds i).id = some id) {s : Stage} (ht : Holds id s built t) :
    Tasks (Function.update builds i t) (Function.update f id (.task i s built)) :=
  h.move (fun _ hi' => some.inj (hi'.symm.trans hid)) (h.free hid) ht

lemma leave (hid : (builds i).id = some id)
    (ht : t.id = none) {life : Life H} (hlf : ∀ j s built, life ≠ .task j s built) :
    Tasks (Function.update builds i t) (Function.update f id life) := by
  refine h.update (fun id' hi' => ?_) (h.free hid) (fun j s built hl => ?_) fun id' hi' => ?_
  · exact some.inj (hi'.symm.trans hid)
  · exact absurd hl (hlf j s built)
  · rw [ht] at hi'
    cases hi'

lemma aside (hid : ∀ j s built, f id ≠ .task j s built) {life : Life H}
    (hlf : ∀ j s built, life ≠ .task j s built) : Tasks builds (Function.update f id life) := by
  constructor
  · intro j id' s built hl
    rcases eq_or_ne id' id with rfl | hne
    · rw [update_self] at hl
      exact absurd hl (hlf j s built)
    · rw [update_of_ne hne] at hl
      exact h.holds hl
  · intro j id' hj
    obtain ⟨s, built, hl⟩ := h.task hj
    rcases eq_or_ne id' id with rfl | hne
    · exact absurd hl (hid j s built)
    · exact ⟨s, built, by rwa [update_of_ne hne]⟩

end Tasks

/-- The registry and its logs are read off the lives. -/
structure Ledger (registry : AList fun _ : UInt64 => BuiltCircuit H)
    (inserted destroyed : List (UInt64 × BuiltCircuit H)) (f : UInt64 → Life H) : Prop where
  lookup : ∀ id, registry.lookup id = (f id).registered
  mem_inserted : ∀ {id built}, (id, built) ∈ inserted ↔ (f id).inserted = some built
  once : (inserted.map Prod.fst).Nodup
  mem_destroyed : ∀ {id built}, (id, built) ∈ destroyed ↔ (f id).destroyed = some built
  nodup : destroyed.Nodup

namespace Ledger

variable {registry : AList fun _ : UInt64 => BuiltCircuit H}
  {inserted destroyed : List (UInt64 × BuiltCircuit H)} {f f' : UInt64 → Life H} {id : UInt64}
  {built : BuiltCircuit H} {life old : Life H}

lemma same (h : Ledger registry inserted destroyed f)
    (hr : ∀ id, (f' id).registered = (f id).registered)
    (hi : ∀ id, (f' id).inserted = (f id).inserted)
    (hd : ∀ id, (f' id).destroyed = (f id).destroyed) :
    Ledger registry inserted destroyed f' where
  lookup id := (h.lookup id).trans (hr id).symm
  mem_inserted := by
    intro id built
    rw [hi, h.mem_inserted]
  once := h.once
  mem_destroyed := by
    intro id built
    rw [hd, h.mem_destroyed]
  nodup := h.nodup

lemma apply_update {α : Type*} (g : Life H → α) (hg : g life = g (f id)) (id' : UInt64) :
    g (update f id life id') = g (f id') := by
  rcases eq_or_ne id' id with rfl | hne
  · rw [update_self, hg]
  · rw [update_of_ne hne]

variable (h : Ledger registry inserted destroyed f)

include h

lemma pass (hl : f id = old) (hr : life.registered = old.registered)
    (hi : life.inserted = old.inserted) (hd : life.destroyed = old.destroyed) :
    Ledger registry inserted destroyed (update f id life) := by
  subst hl
  exact h.same (apply_update _ hr) (apply_update _ hi) (apply_update _ hd)

lemma put (hl : f id = old) (hn : old.inserted = none)
    (hd : old.destroyed = none) (hr : life.registered = some built)
    (hi : life.inserted = some built) (hd' : life.destroyed = none) :
    Ledger (registry.insert id built) ((id, built) :: inserted) destroyed (update f id life) where
  lookup id' := by
    rw [lookup_insert_eq_ite]
    rcases eq_or_ne id' id with rfl | hne
    · rw [if_pos rfl, update_self, hr]
    · rw [if_neg hne, update_of_ne hne, h.lookup]
  mem_inserted := by
    intro id' built'
    rw [mem_cons, Prod.mk.injEq, h.mem_inserted]
    rcases eq_or_ne id' id with rfl | hne
    · rw [update_self, hi, hl, hn]
      simp [eq_comm]
    · simp [hne]
  once := by
    refine nodup_cons.2 ⟨fun hm => ?_, h.once⟩
    obtain ⟨⟨id', built'⟩, hx, rfl⟩ := mem_map.1 hm
    rw [h.mem_inserted, hl, hn] at hx
    cases hx
  mem_destroyed := by
    intro id' built'
    rw [h.mem_destroyed, apply_update Life.destroyed (by rw [hd', hl, hd])]
  nodup := h.nodup

lemma take (hl : f id = old) (hr : life.registered = none)
    (hi : life.inserted = old.inserted) (hd : life.destroyed = old.destroyed) :
    Ledger (registry.erase id) inserted destroyed (update f id life) where
  lookup id' := by
    rw [lookup_erase_eq_ite]
    rcases eq_or_ne id' id with rfl | hne
    · rw [if_pos rfl, update_self, hr]
    · rw [if_neg hne, update_of_ne hne, h.lookup]
  mem_inserted := by
    intro id' built'
    rw [h.mem_inserted, apply_update Life.inserted (hl ▸ hi)]
  once := h.once
  mem_destroyed := by
    intro id' built'
    rw [h.mem_destroyed, apply_update Life.destroyed (hl ▸ hd)]
  nodup := h.nodup

lemma destroy (hl : f id = old) (hr : old.registered = none)
    (hi : old.inserted = some built) (hd : old.destroyed = none) :
    Ledger registry inserted ((id, built) :: destroyed) (update f id (.gone built)) where
  lookup id' := by
    have hs : (Life.gone built).registered = (f id).registered := hl ▸ hr.symm
    rw [h.lookup, apply_update Life.registered hs]
  mem_inserted := by
    intro id' built'
    have hs : (Life.gone built).inserted = (f id).inserted := hl ▸ hi.symm
    rw [h.mem_inserted, apply_update Life.inserted hs]
  once := h.once
  mem_destroyed := by
    intro id' built'
    rw [mem_cons, Prod.mk.injEq, h.mem_destroyed]
    rcases eq_or_ne id' id with rfl | hne
    · rw [update_self, hl, hd]
      simp [Life.destroyed, eq_comm]
    · simp [hne]
  nodup := by
    refine nodup_cons.2 ⟨fun hm => ?_, h.nodup⟩
    rw [h.mem_destroyed, hl, hd] at hm
    cases hm

end Ledger

/-- So are the index of the pool and the list of the tick. -/
structure Shelves (d : PoolDriver H) (f : UInt64 → Life H) : Prop where
  pooled : ∀ {id}, (d.pool.idIndex.lookup id).isSome = true ↔ ∃ built, f id = .pooled built
  scheduled : ∀ {id built}, f id = .scheduled built → .retireCircuit id ∈ d.actions
  retire : ∀ {id}, .retireCircuit id ∈ d.actions →
    ∃ built, f id = .scheduled built ∨ f id = .retiring built ∨ f id = .gone built
  destroying : ∀ {id built}, f id = .retiring built ↔ d.destroying = some (id, built)

/-- All tables of the driver are read off the lives of the ids. -/
structure Tracks (d : PoolDriver H) (f : UInt64 → Life H) : Prop where
  sound : d.pool.Sound
  tasks : Tasks d.builds f
  spawned : ∀ i, d.spawned ≤ i → d.builds i = .done
  ledger : Ledger d.registry.inner d.inserted d.destroyed f
  shelves : Shelves d f
  issued : ∀ id, f id ≠ .unborn → id ∈ d.issued

variable {d : PoolDriver H} {f : UInt64 → Life H} {id : UInt64} {life old : Life H} {i : ℕ}
  {p : CircuitPool UInt64} {c : Router.Class} {acts : List (PoolAction UInt64)}

/-- The pool has had the circuit, which is not yet gone. -/
def Life.Shelved : Life H → Prop
  | .pooled _ | .scheduled _ | .retiring _ => True
  | .unborn | .task _ _ _ | .gone _ => False

/-- The pool has not yet had the circuit. -/
def Life.Early : Life H → Prop
  | .unborn | .task _ _ _ => True
  | .pooled _ | .scheduled _ | .retiring _ | .gone _ => False

lemma Shelves.update {d' : PoolDriver H} (h : Shelves d f)
    (hpl : ∀ id', id' ≠ id →
      (d'.pool.idIndex.lookup id').isSome = (d.pool.idIndex.lookup id').isSome)
    (ha : ∀ id', id' ≠ id → (.retireCircuit id' ∈ d'.actions ↔ .retireCircuit id' ∈ d.actions))
    (hds : ∀ id' built, id' ≠ id →
      (d'.destroying = some (id', built) ↔ d.destroying = some (id', built)))
    (hp : (d'.pool.idIndex.lookup id).isSome = true ↔ ∃ built, life = .pooled built)
    (hs : ∀ built, life = .scheduled built → .retireCircuit id ∈ d'.actions)
    (hr : .retireCircuit id ∈ d'.actions →
      ∃ built, life = .scheduled built ∨ life = .retiring built ∨ life = .gone built)
    (hd : ∀ built, life = .retiring built ↔ d'.destroying = some (id, built)) :
    Shelves d' (update f id life) := by
  constructor
  all_goals
    intro id'
    rcases eq_or_ne id' id with rfl | hne
  · simpa using hp
  · rw [hpl id' hne, update_of_ne hne]
    exact h.pooled
  · exact fun {b} hb => hs b (by simpa using hb)
  · rw [ha id' hne, update_of_ne hne]
    exact h.scheduled
  · simpa using hr
  · rw [ha id' hne, update_of_ne hne]
    exact h.retire
  · exact fun {b} => by simpa using hd b
  · intro built
    rw [hds id' built hne, update_of_ne hne]
    exact h.destroying

lemma Shelves.pass (h : Shelves d f) (hl : f id = old) (ho : old.Early)
    (hlf : ¬ life.Shelved) : Shelves d (Function.update f id life) := by
  subst hl
  have hn : ∀ life', life'.Shelved → life ≠ life' := by
    rintro life' hs rfl
    exact hlf hs
  have hw : ∀ life', ¬ life'.Early → f id ≠ life' := by
    rintro life' hl rfl
    exact hl ho
  refine h.update (fun _ _ => rfl) (fun _ _ => Iff.rfl) (fun _ _ _ => Iff.rfl) ?_ ?_ ?_ ?_
  · rw [h.pooled]
    exact iff_of_false (fun ⟨b, hb⟩ => hw (.pooled b) not_false hb)
      fun ⟨b, hb⟩ => hn (.pooled b) trivial hb
  · exact fun b hb => absurd hb (hn (.scheduled b) trivial)
  · intro hm
    obtain ⟨b, hl⟩ := h.retire hm
    rcases hl with hl | hl | hl <;> exact absurd hl (hw _ not_false)
  · intro b
    rw [← h.destroying]
    exact iff_of_false (hn (.retiring b) trivial) (hw (.retiring b) not_false)

lemma Shelves.of_eq {d' : PoolDriver H} (h : Shelves d f) (hp : d'.pool.idIndex = d.pool.idIndex)
    (ha : d'.actions = d.actions) (hd : d'.destroying = d.destroying) : Shelves d' f := by
  constructor
  · intro id
    rw [hp, h.pooled]
  · intro id built hl
    rw [ha]
    exact h.scheduled hl
  · intro id hm
    rw [ha] at hm
    exact h.retire hm
  · intro id built
    rw [hd, h.destroying]

namespace Tracks

section

variable (h : Tracks d f)

include h

lemma unborn (hn : id ∉ d.issued) : f id = .unborn :=
  Classical.byContradiction fun hne => hn (h.issued id hne)

lemma lt_spawned (hi : d.builds i ≠ .done) : i < d.spawned :=
  Nat.lt_of_not_le fun hle => hi (h.spawned i hle)

lemma spawned_update (hi : d.builds i ≠ .done) (t : BuildTask H) (j : ℕ)
    (hj : d.spawned ≤ j) : update d.builds i t j = .done := by
  have hne : j ≠ i := fun heq => absurd (h.lt_spawned hi) (not_lt.2 (heq ▸ hj))
  rw [update_of_ne hne]
  exact h.spawned j hj

lemma idle (hi : d.builds i ≠ .done) (hid : (d.builds i).id = none)
    {t : BuildTask H} (ht : t.id = none) : Tracks (d.setBuild i t) f :=
  ⟨h.sound, h.tasks.idle hid ht, h.spawned_update hi t, h.ledger, h.shelves.of_eq rfl rfl rfl,
    h.issued⟩

lemma spawn (profile : CircuitProfile) : Tracks (d.spawn profile) f := by
  have hd := h.spawned d.spawned le_rfl
  refine ⟨h.sound, h.tasks.idle (by rw [hd]; rfl) rfl, fun j hj => ?_, h.ledger,
    h.shelves.of_eq rfl rfl rfl, h.issued⟩
  have hlt : d.spawned < j := hj
  change update d.builds d.spawned _ j = .done
  rw [update_of_ne (ne_of_gt hlt)]
  exact h.spawned j hlt.le

lemma pool (hs : p.Sound) (hi : p.idIndex = d.pool.idIndex) : Tracks { d with pool := p } f :=
  ⟨hs, h.tasks, h.spawned, h.ledger, h.shelves.of_eq hi rfl rfl, h.issued⟩

lemma recordBuildFailure : Tracks { d with pool := (d.pool.recordBuildFailure c).2 } f := by
  have hs : (d.pool.step (fun _ _ => .replicate 32 0) (.recordBuildFailure c)).Sound :=
    h.sound.step nofun
  have hi : (d.pool.step (fun _ _ => .replicate 32 0) (.recordBuildFailure c)).idIndex =
      d.pool.idIndex := idIndex_step h.sound.tidy rfl nofun
  exact h.pool hs hi

lemma issued_update {id' : UInt64} (hid : id ∈ d.issued)
    (hne : update f id life id' ≠ .unborn) : id' ∈ d.issued := by
  rcases eq_or_ne id' id with rfl | hn'
  · exact hid
  · rw [update_of_ne hn'] at hne
    exact h.issued id' hne

lemma take_id (hn : d.nextId ∉ d.issued) (hi : d.builds i = .building c)
    (built : BuiltCircuit H) :
    Tracks { d.setBuild i (.registering d.nextId c built) with
        nextId := d.nextId + 1, issued := d.nextId :: d.issued }
      (Function.update f d.nextId (.task i .registering built)) := by
  have hun := h.unborn hn
  refine ⟨h.sound, h.tasks.move (fun id' hi' => ?_) (fun j s b hl => ?_) .registering,
    h.spawned_update (by rw [hi]; nofun) _, h.ledger.pass hun rfl rfl rfl,
    (h.shelves.pass hun trivial (by exact not_false)).of_eq rfl rfl rfl, fun id' hne => ?_⟩
  · rw [hi] at hi'
    cases hi'
  · rw [hun] at hl
    cases hl
  · rcases eq_or_ne id' d.nextId with rfl | hn'
    · exact mem_cons_self
    · rw [Function.update_of_ne hn'] at hne
      exact mem_cons_of_mem _ (h.issued id' hne)

lemma held {t : BuildTask H} (hi : d.builds i = t) (ht : t.id = some id) :
    (d.builds i).id = some id ∧ ∃ s built, f id = .task i s built ∧ Holds id s built t := by
  subst hi
  exact ⟨ht, h.tasks.holds_task ht⟩

lemma mem_issued (hid : (d.builds i).id = some id) : id ∈ d.issued := by
  obtain ⟨s, built, hl⟩ := h.tasks.task hid
  exact h.issued id (by rw [hl]; nofun)

variable {built : BuiltCircuit H}

lemma register (hi : d.builds i = .registering id c built) :
    Tracks { d.setBuild i (.recording id c) with
        registry := d.registry.insert id built, inserted := (id, built) :: d.inserted }
      (Function.update f id (.task i .waiting built)) := by
  obtain ⟨hid, s, built', hl, ⟨⟩⟩ := h.held hi rfl
  exact ⟨h.sound, h.tasks.proceed hid .recording, h.spawned_update (by rw [hi]; nofun) _,
    h.ledger.put hl rfl rfl rfl rfl rfl,
    (h.shelves.pass hl trivial (by exact not_false)).of_eq rfl rfl rfl,
    fun _ => h.issued_update (h.mem_issued hid)⟩

lemma record (hi : d.builds i = .recording id c) {n : ℕ} {now : ℕ}
    (hr : d.pool.recordBuilt id c now = (.ok n, p)) :
    ∃ f', Tracks { d.setBuild i .done with pool := p } f' := by
  obtain ⟨hid, s, built, hl, ⟨⟩⟩ := h.held hi rfl
  have hn : d.pool.idIndex.lookup id = none := by
    cases hlk : d.pool.idIndex.lookup id with
    | none => rfl
    | some c' =>
      obtain ⟨b, hb⟩ := h.shelves.pooled.1 (by rw [hlk]; rfl)
      rw [hl] at hb
      cases hb
  have hs : p.Sound := by
    have hst : (d.pool.step (fun _ _ => .replicate 32 0) (.recordBuilt id c now)).Sound :=
      h.sound.step fun id' hi' => by cases hi'; exact hn
    rwa [show (d.pool.step _ (.recordBuilt id c now)) = p from congrArg Prod.snd hr] at hst
  have hix : p.idIndex = d.pool.idIndex.insert id c := by
    rcases d.pool.recordBuilt_spec id c now with ⟨he, -⟩ | ⟨m, -, hc⟩
    · rw [hr] at he
      cases he
    · rw [hr] at hc
      cases hc
      rfl
  refine ⟨Function.update f id (.pooled built), hs, h.tasks.leave hid rfl nofun,
    h.spawned_update (by rw [hi]; nofun) _, h.ledger.pass hl rfl rfl rfl, ?_,
    fun _ => h.issued_update (h.mem_issued hid)⟩
  refine h.shelves.update (fun id' hne => ?_) (fun _ _ => Iff.rfl) (fun _ _ _ => Iff.rfl) ?_
    nofun (fun hm => ?_) fun b => iff_of_false nofun fun hd => ?_
  · rw [hix, AList.lookup_insert_ne hne]
  · rw [hix, AList.lookup_insert]
    exact iff_of_true rfl ⟨built, rfl⟩
  · obtain ⟨b, hb⟩ := h.shelves.retire hm
    rw [hl] at hb
    rcases hb with hb | hb | hb <;> cases hb
  · have hb := h.shelves.destroying.2 hd
    rw [hl] at hb
    cases hb

lemma refuse (hi : d.builds i = .recording id c) : Tracks (d.setBuild i (.refused id)) f := by
  obtain ⟨hid, s, built, hl, ⟨⟩⟩ := h.held hi rfl
  have hm := h.tasks.proceed hid (show Holds id .waiting built (.refused id) from .refused)
  rw [← hl, Function.update_eq_self] at hm
  exact ⟨h.sound, hm, h.spawned_update (by rw [hi]; nofun) _, h.ledger,
    h.shelves.of_eq rfl rfl rfl, h.issued⟩

lemma withdraw (hi : d.builds i = .refused id) :
    ∃ built, d.registry.inner.lookup id = some built ∧
      Tracks { d.setBuild i (.destroying id built) with registry := (d.registry.take id).2 }
        (Function.update f id (.task i .leaving built)) := by
  obtain ⟨hid, s, built, hl, ⟨⟩⟩ := h.held hi rfl
  exact ⟨built, by rw [h.ledger.lookup, hl]; rfl, h.sound,
    h.tasks.proceed hid .destroying, h.spawned_update (by rw [hi]; nofun) _,
    h.ledger.take hl rfl rfl rfl,
    (h.shelves.pass hl trivial (by exact not_false)).of_eq rfl rfl rfl,
    fun _ => h.issued_update (h.mem_issued hid)⟩

lemma destroy (hi : d.builds i = .destroying id built) :
    Tracks { d.setBuild i .done with destroyed := (id, built) :: d.destroyed }
      (Function.update f id (.gone built)) := by
  obtain ⟨hid, s, built', hl, ⟨⟩⟩ := h.held hi rfl
  exact ⟨h.sound, h.tasks.leave hid rfl nofun, h.spawned_update (by rw [hi]; nofun) _,
    h.ledger.destroy hl rfl rfl rfl,
    (h.shelves.pass hl trivial (by exact not_false)).of_eq rfl rfl rfl,
    fun _ => h.issued_update (h.mem_issued hid)⟩

lemma advance (o : Outcome H) (hn : (d.advance i o).issued ≠ d.issued → d.nextId ∉ d.issued) :
    ∃ f', Tracks (d.advance i o) f' := by
  unfold PoolDriver.advance at hn ⊢
  cases hi : d.builds i with
  | done => exact ⟨f, h⟩
  | selecting profile =>
    refine ⟨f, h.idle (by rw [hi]; nofun) (by rw [hi]; rfl) ?_⟩
    split <;> rfl
  | building c =>
    cases hb : o.built with
    | none => exact ⟨f, h.idle (by rw [hi]; nofun) (by rw [hi]; rfl) rfl⟩
    | some built =>
      simp only [hi, hb] at hn
      exact ⟨_, h.take_id (hn (cons_ne_self _ _)) hi built⟩
  | failing c =>
    have hid := h.idle (t := .done) (by rw [hi]; nofun) (by rw [hi]; rfl) rfl
    exact ⟨f, hid.recordBuildFailure⟩
  | registering id c built => exact ⟨_, h.register hi⟩
  | recording id c =>
    dsimp only
    rcases hr : d.pool.recordBuilt id c o.now with ⟨r, p⟩
    cases r with
    | ok n => exact h.record hi hr
    | error e =>
      rcases d.pool.recordBuilt_spec id c o.now with ⟨he, -⟩ | ⟨m, hok, -⟩
      · rw [hr] at he
        cases he
        exact ⟨f, h.refuse hi⟩
      · rw [hr] at hok
        cases hok
  | refused id =>
    obtain ⟨built, hl, ht⟩ := h.withdraw hi
    have htk : d.registry.take id = (some built, (d.registry.take id).2) :=
      congrArg (·, (d.registry.take id).2) hl
    dsimp only
    rw [htk]
    exact ⟨_, ht⟩
  | destroying id built => exact ⟨_, h.destroy hi⟩

end

def retired (acts : List (PoolAction UInt64)) (id : UInt64) : Life H → Life H
  | .pooled built => if .retireCircuit id ∈ acts then .scheduled built else .pooled built
  | life => life

lemma retired_cases : (∃ built, .retireCircuit id ∈ acts ∧ life = .pooled built ∧
        retired acts id life = .scheduled built) ∨
      retired acts id life = life ∧ ∀ built, life = .pooled built → .retireCircuit id ∉ acts := by
  cases life with
  | pooled built =>
    by_cases hm : .retireCircuit id ∈ acts
    · exact .inl ⟨built, hm, rfl, if_pos hm⟩
    · exact .inr ⟨if_neg hm, fun _ _ => hm⟩
  | unborn | task | scheduled | retiring | gone => exact .inr ⟨rfl, nofun⟩

lemma retired_tasks {builds : ℕ → BuildTask H} (h : Tasks builds f) :
    Tasks builds fun id => retired acts id (f id) := by
  constructor
  · intro i id s built hl
    rcases retired_cases with ⟨b, -, -, hr⟩ | ⟨hr, -⟩
    · rw [hr] at hl
      cases hl
    · rw [hr] at hl
      exact h.holds hl
  · intro i id hid
    obtain ⟨s, built, hl⟩ := h.task hid
    exact ⟨s, built, by simp only [hl, retired]⟩

lemma retired_shelves (h : Shelves d f) (ha : d.actions = [])
    (hlk : ∀ id, p.idIndex.lookup id =
      if .retireCircuit id ∈ acts then none else d.pool.idIndex.lookup id)
    (hh : ∀ id, .retireCircuit id ∈ acts → (d.pool.idIndex.lookup id).isSome = true) :
    Shelves { d with pool := p, actions := acts } fun id => retired acts id (f id) := by
  constructor
  · intro id
    rw [hlk]
    rcases retired_cases with ⟨b, hm, -, hr⟩ | ⟨hr, hn⟩
    · rw [if_pos hm, hr]
      exact iff_of_false nofun nofun
    rw [hr]
    by_cases hm : .retireCircuit id ∈ acts
    · obtain ⟨b, hb⟩ := h.pooled.1 (hh id hm)
      exact absurd hm (hn b hb)
    · rw [if_neg hm]
      exact h.pooled
  · intro id built hl
    rcases retired_cases with ⟨b, hm, -, -⟩ | ⟨hr, -⟩
    · exact hm
    rw [hr] at hl
    have ho := h.scheduled hl
    rw [ha] at ho
    cases ho
  · intro id hm
    obtain ⟨b, hb⟩ := h.pooled.1 (hh id hm)
    refine ⟨b, .inl ?_⟩
    simp only [hb, retired]
    exact if_pos hm
  · intro id built
    rw [← h.destroying]
    rcases retired_cases with ⟨b, -, hb, hr⟩ | ⟨hr, -⟩
    · rw [hr, hb]
      exact iff_of_false nofun nofun
    · rw [hr]

variable (h : Tracks d f)

include h

lemma retire (ha : d.actions = []) (hs : p.Sound) (hl : ∀ id, p.idIndex.lookup id =
      if .retireCircuit id ∈ acts then none else d.pool.idIndex.lookup id)
    (hh : ∀ id, .retireCircuit id ∈ acts → (d.pool.idIndex.lookup id).isSome = true) :
    Tracks { d with pool := p, actions := acts } fun id => retired acts id (f id) := by
  have hp : ∀ {α : Type _} (q : Life H → α),
      (∀ built, q (.scheduled built) = q (.pooled built)) →
        ∀ id, q (retired acts id (f id)) = q (f id) := by
    intro α q hq id
    rcases retired_cases with ⟨b, -, hb, hr⟩ | ⟨hr, -⟩
    · rw [hr, hb, hq]
    · rw [hr]
  refine ⟨hs, retired_tasks h.tasks, h.spawned,
    h.ledger.same (hp _ fun _ => rfl) (hp _ fun _ => rfl) (hp _ fun _ => rfl),
    retired_shelves h.shelves ha hl hh, fun id hne => h.issued id fun hun => hne ?_⟩
  rw [hun]
  rfl

lemma tickOnce (picker : Picker) (order : List Router.Class) (now : ℕ) :
    ∃ f', Tracks (d.tickOnce picker order now) f' := by
  unfold PoolDriver.tickOnce
  split
  · next ha hd =>
    have hs : (d.pool.step (fun _ _ => .replicate 32 0) (.tick picker order now)).Sound :=
      h.sound.step nofun
    refine ⟨_, h.retire ha hs (lookup_tick h.sound.tidy picker order now) fun id hm => ?_⟩
    obtain ⟨c, e, he, hed, -⟩ := idle_of_retire hm
    rw [(h.sound.indexed.index id c).2 (mem_filterMap.2 ⟨e, he, hed⟩)]
    rfl
  · exact ⟨f, h⟩

lemma rest {a : PoolAction UInt64} {rest : List (PoolAction UInt64)}
    (hac : d.actions = a :: rest)
    (ha : ∀ id built, a = .retireCircuit id → f id ≠ .scheduled built) :
    Tracks { d with actions := rest } f := by
  refine ⟨h.sound, h.tasks, h.spawned, h.ledger, ⟨h.shelves.pooled, ?_, ?_, h.shelves.destroying⟩,
    h.issued⟩
  · intro id built hl
    have ho := h.shelves.scheduled hl
    rw [hac] at ho
    rcases mem_cons.1 ho with heq | hm
    · exact absurd hl (ha id built heq.symm)
    · exact hm
  · intro id hm
    refine h.shelves.retire ?_
    rw [hac]
    exact mem_cons_of_mem a hm

lemma drain : Tracks { d with registry := d.registry.markDraining id } f :=
  ⟨h.sound, h.tasks, h.spawned, h.ledger, h.shelves.of_eq rfl rfl rfl, h.issued⟩

lemma takeRetired (hd : d.destroying = none)
    {rest : List (PoolAction UInt64)} (ha : d.actions = .retireCircuit id :: rest) :
    ∃ f', Tracks { d with
      registry := (d.registry.take id).2, actions := rest
      destroying := (d.registry.inner.lookup id).map (id, ·) } f' := by
  have hm : .retireCircuit id ∈ d.actions := by rw [ha]; exact mem_cons_self
  obtain ⟨built, hb⟩ := h.shelves.retire hm
  rcases hb with hb | hb | hb
  · have hl : d.registry.inner.lookup id = some built := by
      rw [h.ledger.lookup, hb]
      rfl
    have ht : ∀ j s b, f id ≠ .task j s b := by
      rw [hb]
      exact nofun
    rw [hl]
    refine ⟨Function.update f id (.retiring built), h.sound, h.tasks.aside ht nofun, h.spawned,
      h.ledger.take hb rfl rfl rfl, ?_,
      fun _ => h.issued_update (h.issued id (by rw [hb]; nofun))⟩
    refine h.shelves.update (fun _ _ => rfl) (fun id' hne => ?_) (fun id' b hne => ?_) ?_ nofun
      (fun _ => ⟨built, .inr (.inl rfl)⟩) fun b => ?_
    · rw [ha, mem_cons]
      simp [hne]
    · simp [hd, Ne.symm hne]
    · rw [h.shelves.pooled, hb]
      exact iff_of_false nofun nofun
    · simp
  · rw [h.shelves.destroying, hd] at hb
    cases hb
  · -- The same circuit was retired before in this tick.
    have hl : d.registry.inner.lookup id = none := by
      rw [h.ledger.lookup, hb]
      rfl
    have hr := h.rest ha fun id' b heq => by
      cases heq
      rw [hb]
      nofun
    have hrg := erase_eq_self hl
    refine ⟨f, hr.sound, hr.tasks, hr.spawned, ?_, hr.shelves.of_eq rfl rfl ?_, hr.issued⟩
    · change Ledger (d.registry.inner.erase id) _ _ _
      rw [hrg]
      exact h.ledger
    · rw [hl, hd]
      rfl

lemma destroyRetired {x : UInt64 × BuiltCircuit H} (hd : d.destroying = some x) :
    Tracks { d with destroying := none, destroyed := x :: d.destroyed }
      (update f x.1 (.gone x.2)) := by
  obtain ⟨id, built⟩ := x
  have hb : f id = .retiring built := h.shelves.destroying.2 hd
  have ht : ∀ j s b, f id ≠ .task j s b := by
    rw [hb]
    exact nofun
  refine ⟨h.sound, h.tasks.aside ht nofun, h.spawned,
    h.ledger.destroy hb rfl rfl rfl, ?_,
    fun _ => h.issued_update (h.issued id (by rw [hb]; nofun))⟩
  refine h.shelves.update (fun _ _ => rfl) (fun _ _ => Iff.rfl) (fun id' b hne => ?_) ?_ nofun
    (fun _ => ⟨built, .inr (.inr rfl)⟩) fun b => iff_of_false nofun nofun
  · simp [hd, Ne.symm hne]
  · rw [h.shelves.pooled, hb]
    exact iff_of_false nofun nofun

lemma act : ∃ f', Tracks d.act f' := by
  unfold PoolDriver.act
  split
  · next hd => exact ⟨_, h.destroyRetired hd⟩
  · exact ⟨f, h⟩
  · next hd ha => exact ⟨f, (h.rest ha nofun).spawn _⟩
  · next hd ha => exact ⟨f, (h.rest ha nofun).drain⟩
  · next hd ha => exact h.takeRetired hd ha

variable (keyed : Bytes32 → Bytes → Bytes32)

lemma use
    {call : PoolCall UInt64} (hc : isUse call = true) :
    Tracks { d with pool := d.pool.step keyed call } f := by
  have hn : newId call = none := by
    cases call <;> first | rfl | cases hc
  have ht : ∀ picker order now, call ≠ .tick picker order now := by
    rintro picker order now rfl
    cases hc
  refine h.pool (h.sound.step fun id hid => ?_) (idIndex_step h.sound.tidy hn ht)
  rw [hn] at hid
  cases hid

lemma step (e : DriverEvent H) (hn : (d.step keyed e).issued ≠ d.issued → d.nextId ∉ d.issued) :
    ∃ f', Tracks (d.step keyed e) f' := by
  cases e with
  | dispatchBuild profile => exact ⟨f, h.spawn profile⟩
  | advance i o => exact h.advance o hn
  | tickOnce picker order now => exact h.tickOnce picker order now
  | act => exact h.act
  | use call =>
    unfold PoolDriver.step
    dsimp only
    split_ifs with hc
    · exact ⟨f, h.use keyed hc⟩
    · exact ⟨f, h⟩

end Tracks

/-- The ids are taken from 1 on, without a gap. -/
structure Counted (d : PoolDriver H) : Prop where
  next : d.nextId = ofNat (1 + d.issued.length)
  issued : ∀ id ∈ d.issued, ∃ k < d.issued.length, id = ofNat (1 + k)

lemma Counted.fresh (h : Counted d) (hlt : d.issued.length < 2 ^ 64) : d.nextId ∉ d.issued := by
  intro hm
  obtain ⟨k, hk, heq⟩ := h.issued _ hm
  rw [h.next] at heq
  have hmd := congrArg toNat heq
  rw [toNat_ofNat', toNat_ofNat'] at hmd
  omega

variable (keyed : Bytes32 → Bytes → Bytes32)

lemma step_issued (e : DriverEvent H) :
    ((d.step keyed e).nextId = d.nextId ∧ (d.step keyed e).issued = d.issued) ∨
      (d.step keyed e).nextId = d.nextId + 1 ∧ (d.step keyed e).issued = d.nextId :: d.issued := by
  cases e with
  | dispatchBuild profile => exact .inl ⟨rfl, rfl⟩
  | advance i o =>
    unfold PoolDriver.step PoolDriver.advance
    dsimp only
    split
    · exact .inl ⟨rfl, rfl⟩
    · exact .inl ⟨rfl, rfl⟩
    · split
      · exact .inl ⟨rfl, rfl⟩
      · exact .inr ⟨rfl, rfl⟩
    · exact .inl ⟨rfl, rfl⟩
    · exact .inl ⟨rfl, rfl⟩
    · split <;> exact .inl ⟨rfl, rfl⟩
    · split <;> exact .inl ⟨rfl, rfl⟩
    · exact .inl ⟨rfl, rfl⟩
  | tickOnce picker order now =>
    unfold PoolDriver.step PoolDriver.tickOnce
    dsimp only
    split <;> exact .inl ⟨rfl, rfl⟩
  | act =>
    unfold PoolDriver.step PoolDriver.act
    dsimp only
    split <;> exact .inl ⟨rfl, rfl⟩
  | use call =>
    unfold PoolDriver.step
    dsimp only
    split_ifs <;> exact .inl ⟨rfl, rfl⟩

lemma Counted.step (h : Counted d) (keyed : Bytes32 → Bytes → Bytes32)
    (e : DriverEvent H) : Counted (d.step keyed e) := by
  rcases step_issued keyed e with ⟨hn, hi⟩ | ⟨hn, hi⟩
  · exact ⟨by rw [hn, hi, h.next], by rw [hi]; exact h.issued⟩
  constructor
  · rw [hn, hi, h.next, length_cons, ← add_assoc, ofNat_add (1 + _) 1]
    rfl
  · intro id hm
    rw [hi] at hm ⊢
    rcases mem_cons.1 hm with rfl | hm
    · exact ⟨_, lt_succ_self _, h.next⟩
    · obtain ⟨k, hk, rfl⟩ := h.issued id hm
      exact ⟨k, lt_succ_of_lt hk, rfl⟩

lemma tracks_new (policy : PoolPolicy) : Tracks (new policy : PoolDriver H) fun _ => .unborn where
  sound := sound_new
  tasks := ⟨nofun, nofun⟩
  spawned _ _ := rfl
  ledger := ⟨fun _ => rfl, iff_of_false nofun nofun, nodup_nil, iff_of_false nofun nofun, nodup_nil⟩
  shelves := ⟨iff_of_false nofun nofun, nofun, nofun, iff_of_false nofun nofun⟩
  issued _ hne := absurd rfl hne

lemma tracks_run (policy : PoolPolicy) (events : List (DriverEvent H))
    (h : (run (step keyed) (new policy) events).issued.length ≤ 2 ^ 64) :
    ∃ f, Tracks (run (step keyed) (new policy) events) f := by
  let I : PoolDriver H → Prop := fun d =>
    Counted d ∧ (d.issued.length ≤ 2 ^ 64 → ∃ f, Tracks d f)
  have hs : ∀ d e, I d → True → I (d.step keyed e) := by
    rintro d e ⟨hc, ht⟩ -
    refine ⟨hc.step keyed e, fun hle => ?_⟩
    rcases step_issued keyed e with ⟨-, hi⟩ | ⟨-, hi⟩
    · rw [hi] at hle
      obtain ⟨f, hf⟩ := ht hle
      exact hf.step keyed e fun hne => absurd hi hne
    · rw [hi, length_cons] at hle
      obtain ⟨f, hf⟩ := ht (le_of_succ_le hle)
      exact hf.step keyed e fun _ => hc.fresh hle
  have hn : I (new policy) := ⟨⟨rfl, nofun⟩, fun _ => ⟨_, tracks_new policy⟩⟩
  exact (inv_run hs _ events hn (along_true _ events)).2 h

namespace PoolDriver

def Indexed (d : PoolDriver H) (x : UInt64 × BuiltCircuit H) : Prop :=
  (d.pool.idIndex.lookup x.1).isSome = true ∧ d.registry.inner.lookup x.1 = some x.2

/-- A build has the circuit in the registry until the pool has answered, or has taken it out to
destroy it. -/
def Held (d : PoolDriver H) (x : UInt64 × BuiltCircuit H) : Prop :=
  ∃ i, ((∃ c, d.builds i = .recording x.1 c) ∨ d.builds i = .refused x.1) ∧
      d.registry.inner.lookup x.1 = some x.2 ∨
    d.builds i = .destroying x.1 x.2

def Scheduled (d : PoolDriver H) (x : UInt64 × BuiltCircuit H) : Prop :=
  .retireCircuit x.1 ∈ d.actions ∧ d.registry.inner.lookup x.1 = some x.2 ∨ d.destroying = some x

/-- The pool gives out what is in the registry, and no circuit is lost or destroyed twice. -/
structure Agrees [DecidableEq H] (keyed : Bytes32 → Bytes → Bytes32)
    (d : PoolDriver H) : Prop where
  acquire : ∀ picker c now id, (d.pool.acquire picker c now).1 = .ok (.ready id) →
    (d.registry.inner.lookup id).isSome = true
  acquireForDomain : ∀ picker c domain salt now id,
    (d.pool.acquireForDomain keyed picker c domain salt now).1 = .ok (.ready id) →
    (d.registry.inner.lookup id).isSome = true
  once : (d.inserted.map Prod.fst).Nodup
  kept : ∀ x ∈ d.inserted,
    (d.Indexed x ∨ d.Held x ∨ d.Scheduled x) ∧ d.destroyed.count x = 0 ∨ d.destroyed.count x = 1

end PoolDriver

lemma Tracks.of_healthy (h : Tracks d f) (hh : d.pool.Healthy c id) :
    (d.registry.inner.lookup id).isSome = true := by
  obtain ⟨e, he, hed, -⟩ := hh
  have hlk := (h.sound.indexed.index id c).2 (mem_filterMap.2 ⟨e, he, hed⟩)
  obtain ⟨built, hl⟩ := h.shelves.pooled.1 (by rw [hlk]; rfl)
  rw [h.ledger.lookup, hl]
  rfl

lemma Tracks.agrees [DecidableEq H] (h : Tracks d f)
    (keyed : Bytes32 → Bytes → Bytes32) : d.Agrees keyed := by
  refine ⟨fun picker c now id hok => ?_, fun picker c domain salt now id hok => ?_, h.ledger.once,
    fun x hx => ?_⟩
  · exact h.of_healthy ((acquire_spec h.sound.tidy picker c now).2 id hok)
  · have hs := acquireForDomain_spec h.sound.tidy keyed picker c domain salt now
    exact h.of_healthy (hs.2 id hok)
  obtain ⟨id, built⟩ := x
  have hi := h.ledger.mem_inserted.1 hx
  have hlk := h.ledger.lookup id
  have hc : (f id).destroyed = none → d.destroyed.count (id, built) = 0 := by
    intro hn
    refine count_eq_zero_of_not_mem fun hm => ?_
    rw [h.ledger.mem_destroyed, hn] at hm
    cases hm
  cases hl : f id with
  | unborn =>
    rw [hl] at hi
    cases hi
  | task i s b =>
    have hh := h.tasks.holds hl
    cases s with
    | registering =>
      rw [hl] at hi
      cases hi
    | waiting =>
      rw [hl] at hi hlk
      obtain rfl := some.inj hi
      refine .inl ⟨.inr (.inl ⟨i, .inl ⟨?_, hlk⟩⟩), hc (by rw [hl]; rfl)⟩
      generalize d.builds i = t at hh
      cases hh with
      | recording => exact .inl ⟨_, rfl⟩
      | refused => exact .inr rfl
    | leaving =>
      rw [hl] at hi
      obtain rfl := some.inj hi
      refine .inl ⟨.inr (.inl ⟨i, .inr ?_⟩), hc (by rw [hl]; rfl)⟩
      generalize d.builds i = t at hh
      cases hh
      rfl
  | pooled b =>
    rw [hl] at hi hlk
    obtain rfl := some.inj hi
    exact .inl ⟨.inl ⟨h.shelves.pooled.2 ⟨_, hl⟩, hlk⟩, hc (by rw [hl]; rfl)⟩
  | scheduled b =>
    rw [hl] at hi hlk
    obtain rfl := some.inj hi
    exact .inl ⟨.inr (.inr (.inl ⟨h.shelves.scheduled hl, hlk⟩)), hc (by rw [hl]; rfl)⟩
  | retiring b =>
    rw [hl] at hi
    obtain rfl := some.inj hi
    exact .inl ⟨.inr (.inr (.inr (h.shelves.destroying.1 hl))), hc (by rw [hl]; rfl)⟩
  | gone b =>
    rw [hl] at hi
    obtain rfl := some.inj hi
    refine .inr (count_eq_one_of_mem h.ledger.nodup (h.ledger.mem_destroyed.2 ?_))
    rw [hl]
    rfl

/-- In every interleaving in which no more ids were taken than there are, the pool and the registry
agree. -/
theorem pool_agrees_with_registry [DecidableEq H] (keyed : Bytes32 → Bytes → Bytes32)
    (policy : PoolPolicy) (events : List (DriverEvent H))
    (h : (run (step keyed) (new policy) events).issued.length ≤ 2 ^ 64) :
    (run (step keyed) (new policy) events).Agrees keyed := by
  obtain ⟨f, hf⟩ := tracks_run keyed policy events h
  exact hf.agrees keyed

def went (n : ℕ) : Outcome ℕ := ⟨true, some ⟨n, 3⟩, 0⟩

def builtAndRetired : List (DriverEvent ℕ) :=
  [.use (.acquire (fun _ _ => 0) .interactive 0),
    .dispatchBuild Class.interactive.defaultProfile, .advance 0 (went 5), .advance 0 (went 5),
    .advance 0 (went 5), .advance 0 (went 5), .use (.recordFailure 1),
    .tickOnce (fun _ _ => 0) Class.all 1, .act, .act]

theorem pool_agrees_with_registry_retired :
    (run (step fun _ _ => .replicate 32 0) (.new .default) builtAndRetired).destroyed =
        [(1, ⟨5, 3⟩)] ∧
      (run (step fun _ _ => .replicate 32 0) (.new .default) builtAndRetired).Agrees
        fun _ _ => .replicate 32 0 :=
  ⟨by decide +kernel, pool_agrees_with_registry _ _ builtAndRetired (by decide +kernel)⟩

/-- `n` builds were refused by a pool that waits for none. -/
structure Idled (n : ℕ) (d : PoolDriver ℕ) : Prop where
  pool : ∀ id c now, d.pool.recordBuilt id c now = (.error (.noPendingBuild c), d.pool)
  done : ∀ i, d.spawned ≤ i → d.builds i = .done
  next : d.nextId = ofNat (1 + n)
  inserted : d.inserted.map Prod.fst = (List.range n).reverse.map fun k => ofNat (1 + k)

def wholeBuild (i : ℕ) : List (DriverEvent ℕ) :=
  .dispatchBuild Class.interactive.defaultProfile :: List.replicate 6 (.advance i (went 5))

lemma Idled.build {n : ℕ} {d : PoolDriver ℕ} (h : Idled n d) (keyed : Bytes32 → Bytes → Bytes32) :
    Idled (n + 1) (run (step keyed) d (wholeBuild d.spawned)) := by
  have hr : run (step keyed) d (wholeBuild d.spawned) =
      { d with
        registry := ((d.registry.insert d.nextId ⟨5, 3⟩).take d.nextId).2
        builds := update d.builds d.spawned .done
        spawned := d.spawned + 1
        nextId := d.nextId + 1
        issued := d.nextId :: d.issued
        inserted := (d.nextId, ⟨5, 3⟩) :: d.inserted
        destroyed := (d.nextId, ⟨5, 3⟩) :: d.destroyed } := by
    simp [wholeBuild, replicate, PoolDriver.step, PoolDriver.spawn, PoolDriver.advance,
      PoolDriver.setBuild, went, h.pool, MemoryCircuitRegistry.take, MemoryCircuitRegistry.insert]
  rw [hr]
  refine ⟨h.pool, fun i hi => ?_, ?_, ?_⟩
  · have hlt : d.spawned < i := hi
    change update d.builds d.spawned .done i = .done
    rw [update_of_ne (ne_of_gt hlt)]
    exact h.done i hlt.le
  · rw [h.next, ← add_assoc, ofNat_add (1 + n) 1]
    rfl
  · rw [map_cons, h.inserted, range_succ, reverse_append, h.next]
    rfl

lemma idled_run (keyed : Bytes32 → Bytes → Bytes32) (n : ℕ) :
    ∃ events, Idled n (run (step keyed) (.new .default) events) := by
  induction n with
  | zero => exact ⟨[], fun _ _ _ => rfl, fun _ _ => rfl, rfl, rfl⟩
  | succ n ih =>
    obtain ⟨events, h⟩ := ih
    exact ⟨_, by rw [run_append]; exact h.build keyed⟩

def BuildTask.recordingId : BuildTask ℕ → Option UInt64
  | .recording id _ => some id
  | _ => none

/-- In the index, with a build, on the list of the tick, or destroyed once. -/
def PoolDriver.Placed (d : PoolDriver ℕ) (x : UInt64 × BuiltCircuit ℕ) : Prop :=
  d.Indexed x ∨ (∃ i < d.spawned, (d.builds i).recordingId = some x.1) ∨
    .retireCircuit x.1 ∈ d.actions ∨ d.destroyed.count x = 1

instance (d : PoolDriver ℕ) (x : UInt64 × BuiltCircuit ℕ) : Decidable (d.Placed x) :=
  inferInstanceAs (Decidable ((_ ∧ _) ∨ _ ∨ _ ∨ _))

/-- In a long run two circuits have one id, and one that is being destroyed is in none of the
places. -/
theorem id_inserted_twice :
    (∃ events : List (DriverEvent ℕ), ¬ ((run (step fun _ _ => .replicate 32 0)
      (.new .default) events).inserted.map Prod.fst).Nodup) ∧
    ∀ events ∈ [(wholeBuild 0).take 5, (wholeBuild 0).take 6, builtAndRetired.dropLast],
      ¬ ∀ x ∈ (run (step fun _ _ => .replicate 32 0) (.new .default) events).inserted,
        (run (step fun _ _ => .replicate 32 0) (.new .default) events).Placed x := by
  refine ⟨?_, by decide +kernel⟩
  obtain ⟨events, h⟩ := idled_run (fun _ _ => .replicate 32 0) (2 ^ 64 + 1)
  refine ⟨events, fun hn => ?_⟩
  rw [h.inserted] at hn
  have hi := List.inj_on_of_nodup_map hn (x := 0) (y := 2 ^ 64)
    (List.mem_reverse.2 (List.mem_range.2 (by omega)))
    (List.mem_reverse.2 (List.mem_range.2 (by omega))) rfl
  omega

end Mirage.Runtime
