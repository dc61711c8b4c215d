import Nelix.Router.Registry
import Nelix.Store.Launch

/-!
# An activation that fails

The operator's activation after its probe of the registry, alone on a store. A `Course` settles in
advance how each of its effects turns out: which of them raise, what the daemon answers, and what
becomes of it.

## Main results

`activation_recovers_iff`: an activation undoes what it did where it raises, and leaves the new
generation active and the old one draining where it returns, in exactly the courses that `Recovers`
describes.
-/
namespace Nelix.Router

open Contracts Core Store GenRoutine

/-! ### Courses -/

/-- How the effects of one activation turn out; `none` is no exception. -/
structure Course where
  clock : Reading
  newGid : GenerationId
  newEpoch : GenerationId
  listed : Option Raised := none
  created : Option Raised := none
  inserted : Option Raised := none
  dirs : Outcome Unit := .ok ()
  spawned : Outcome (Option Incarnation × String)
  /-- A spawn that raises leaves a process behind. -/
  leaves : Bool := false
  /-- The answers to the health checks, one after another. -/
  healthy : ℕ → Outcome Bool
  holder : Outcome (Option Holder)
  promoted : Option Raised := none
  flipped : Option Raised := none
  cached : Outcome Unit := .ok ()
  reaped : Outcome Bool
  buried : Option Raised := none

/-- The store and the registry during an activation. -/
structure Attempt where
  db : Db
  cell : Cell := {}
  /-- The first of the two new ids has been given out. -/
  named : Bool := false
  checks : ℕ := 0
  /-- A daemon of the new generation may be running. -/
  atLarge : Bool := false

/-- The exception that a call meets before it reaches the store. -/
def Course.fault (c : Course) : Call → Option Raised
  | .createGeneration .. => c.created
  | .insertEpoch .. => c.inserted
  | .casEpochServing .. => c.promoted
  | .setGenerationLifecycleStateAtomic .. => c.flipped
  | .reconcileEpochDead .. => c.buried
  | _ => none

/-- What a call comes to. -/
def Course.writes (c : Course) (call : Call) (db : Db) : Outcome Db :=
  match c.fault call with
  | some raised => .error raised
  | none => call.apply db

def Course.lists (c : Course) (db : Db) : Outcome (List GenerationRow) :=
  match c.listed with
  | some raised => .error raised
  | none => db.listGenerations

/-- The reap of a daemon that is not known refuses. -/
def Course.reaps (c : Course) (incarnation : Option Incarnation) : Outcome Bool :=
  if incarnation.isSome then c.reaped else .ok false

/-- The answers of an activation's effects. -/
def Course.answer (c : Course) (e : GenEffect) (w : Attempt) : e.Answer × Attempt :=
  match e with
  | .listGenerations _ => (c.lists w.db, w)
  | .write call =>
    match c.writes call w.db with
    | .ok db' => (.ok (), { w with db := db' })
    | .error raised => (.error raised, w)
  | .newGenerationId => ((if w.named then c.newEpoch else c.newGid).value, { w with named := true })
  | .time => (c.clock, w)
  | .ensureDirs _ => (c.dirs, w)
  | .ensureRunning .. => (c.spawned, { w with atLarge := c.spawned.isOk || c.leaves })
  | .checkHealthStrict .. => (c.healthy w.checks, { w with checks := w.checks + 1 })
  | .liveLockHolder _ => (c.holder, w)
  | .reapHolder _ incarnation =>
    let gone : Bool := c.reaps incarnation matches .ok true
    (c.reaps incarnation, { w with atLarge := w.atLarge && !gone })
  | .runtimeActivate _ => (c.cached, w)
  | .remember g => ((), { w with cell := { w.cell with generationId := some g } })
  | .install adopted bump =>
    ((), { w with cell := { w.cell with
      active := some adopted
      topologyRevision := w.cell.topologyRevision + if bump then 1 else 0 } })
  | .readCell => (w.cell, w)
  | .ask query => (w.db.answer query, w)
  | .lockOperator => (.ok (), w)
  | .generationDirs => (none, w)
  | .isInstalled _ => (.ok true, w)
  | .runtimeActive => (.ok none, w)
  | .endpoint .. => (.ok none, w)
  | .checkHealth .. => (.ok true, w)
  | .healthIdentity .. => (.ok none, w)
  | .lockRegistry | .unlockRegistry | .unlockOperator | .refresh .. | .sleep => ((), w)

/-- The activation meets the contract: it raises and everything is as before, the new epoch dead
and its daemon gone, or it returns and the new generation has taken over. -/
def Meets (db : Db) : Except Raised Operator.ActivateReply × Attempt → Prop
  | (.error _, w) => Restored db w.db ∧ w.atLarge = false
  | (.ok (.activated g _ e _), w) => w.db.Active g ∧ w.db.Serves g e ∧ w.db.pointer g = some e ∧
      ∀ g', db.Active g' → w.db.lifecycleOf g' = some .draining
  | (.ok (.idempotent ..), _) => False

/-! ### When an activation recovers -/

/-- The first of a number of health checks that is not a no. -/
def Course.verdict (c : Course) (from_ : ℕ) : ℕ → Outcome Bool
  | 0 => .ok false
  | tries + 1 =>
    match c.healthy from_ with
    | .ok false => c.verdict (from_ + 1) tries
    | answer => answer

/-- The old generation that the activation finds. -/
def Course.old (c : Course) (db : Db) : Option GenerationRow :=
  match c.lists db with
  | .ok gens => (Registry.activeRows gens).head?
  | .error _ => none

/-- The daemon is known, the reap has it gone, and the epoch is marked dead. -/
def Course.Undoes (c : Course) (incarnation : Option Incarnation) : Prop :=
  c.reaps incarnation = .ok true ∧ c.buried = none

/-- The listing raises something that the activation does not pass over. -/
def Course.Stops (c : Course) : Prop := ∃ x, c.listed = some x ∧ ∀ e, x ≠ .nelix e

/-- The new generation and its epoch come to be. -/
def Course.Begins (c : Course) (db : Db) (buildId : String) : Prop :=
  ¬ c.Stops ∧ c.created = none ∧ c.inserted = none ∧ buildId ≠ "" ∧ c.clock.toFinite?.isSome ∧
    db.findGeneration c.newGid.value = none ∧ db.findEpoch c.newEpoch.value = none

/-- The promotion is refused and undone, or the flip goes through and drains every active
generation. -/
def Course.Settles (c : Course) (db : Db) (holder : Holder) : Prop :=
  match c.promoted with
  | some (.nelix _) => c.Undoes (some holder.incarnation)
  | some _ => False
  | none =>
    (c.flipped = none ∧ (∀ g, db.Active g → (c.old db).any (·.generationId = g)) ∧
        ∀ e, ¬ db.Serves c.newGid.value e) ∨
      (c.Undoes (some holder.incarnation) ∧ ¬ ∀ e, ¬ db.Serves c.newGid.value e)

/-- The daemon's part and what follows it. -/
def Course.Continues (c : Course) (db : Db) (incarnation : Option Incarnation) : Prop :=
  match c.verdict 0 Operator.healthTries with
  | .error _ => False
  | .ok false => c.Undoes incarnation
  | .ok true =>
    match c.holder with
    | .error _ => False
    | .ok none => c.Undoes incarnation
    | .ok (some holder) => c.Settles db holder

/-- The courses that do not reach a point without an undo. -/
def Course.Recovers (c : Course) (db : Db) (buildId : String) : Prop :=
  c.Begins db buildId →
    c.dirs = .ok () ∧
      match c.spawned with
      | .error _ => c.buried = none ∧ c.leaves = false
      | .ok (incarnation, _) => c.Continues db incarnation

/-! ### The effects -/

variable {c : Course} {at_ : Deployment} {db : Db} {w : Attempt} {g e : String}

theorem run_write {call : Call} : (write call).run c.answer w =
    match c.writes call w.db with
    | .ok db' => (.ok (), { w with db := db' })
    | .error raised => (.error raised, w) := by
  simp only [write, Prog.run_perform, Course.answer]
  split <;> rfl

theorem run_reapHolder {incarnation : Option Incarnation} :
    (reapHolder g incarnation).run c.answer w =
      (c.reaps incarnation, { w with
        atLarge := w.atLarge && !(c.reaps incarnation matches .ok true) }) := rfl

theorem run_healthCheck {transport buildId : String} (tries : ℕ) (w : Attempt) :
    ∃ k, (Operator.healthCheck g transport e buildId tries).run c.answer w =
      (c.verdict w.checks tries, { w with checks := k }) := by
  induction tries generalizing w with
  | zero => exact ⟨w.checks, rfl⟩
  | succ tries ih =>
    have checked : (checkHealthStrict g transport e (some buildId)).run c.answer w =
        (c.healthy w.checks, { w with checks := w.checks + 1 }) := rfl
    rw [Operator.healthCheck, Prog.run_bind, checked, Course.verdict]
    match c.healthy w.checks with
    | .error x => exact ⟨w.checks + 1, rfl⟩
    | .ok true => exact ⟨w.checks + 1, rfl⟩
    | .ok false =>
      dsimp only
      simp only [Bool.false_eq_true, if_false]
      split
      · rename_i last
        subst last
        exact ⟨w.checks + 1, rfl⟩
      · obtain ⟨k, again⟩ := ih { w with checks := w.checks + 1 }
        exact ⟨k, again⟩

/-! ### The undo -/

/-- The undo of a launch restores everything exactly when the reap has the daemon gone and the
reconciliation goes through. -/
theorem meets_undo {state : ProcessState} {pointer : Option String}
    {incarnation : Option Incarnation} (launched : Launched db w.db g e state pointer)
    (points : pointer = none ∨ pointer = some e) (alive : state ≠ .dead) (large : w.atLarge = true)
    (named : g ≠ "") (named' : e ≠ "") (x : Raised) :
    Meets db ((do
      let _ ← reapHolder g incarnation
      write (.reconcileEpochDead g e)
      (.raise x : GenRoutine Operator.ActivateReply)).run c.answer w) ↔ c.Undoes incarnation := by
  obtain ⟨d', buried, dead⟩ := launched.bury points named named'
  have kept : ¬ Restored db w.db := fun restored => alive (launched.restored_iff.mp restored).1
  rw [Prog.run_bind, run_reapHolder, Course.Undoes]
  cases reaped : c.reaps incarnation with
  | error raised => simp [Meets, kept]
  | ok gone =>
    dsimp only
    rw [Prog.run_bind, run_write, Course.writes]
    cases fault : c.fault (.reconcileEpochDead g e) with
    | some raised =>
      have unburied : c.buried = some raised := fault
      simp [Meets, kept, unburied]
    | none =>
      have goes : c.buried = none := fault
      have called : (Call.reconcileEpochDead g e).apply w.db = .ok d' := buried
      simp only [called]
      cases gone <;> simp [Prog.raise, Meets, dead.restored_iff, large, goes]

/-! ### The takeover -/

/-- What is known of the generation that the activation is to drain. -/
def OldActive (db : Db) (old : Option GenerationRow) : Prop :=
  ∀ row, old = some row → db.findGeneration row.generationId = some row ∧
    row.lifecycleState = .active ∧ row.generationId ≠ ""

/-- The cache never fails the flip. -/
theorem run_cache {build : String} : (Prog.rescue (do
      runtimeActivate build
      pure true)
      fun _ => pure false : GenRoutine Bool).run c.answer w = (.ok c.cached.isOk, w) := by
  change ((Prog.done c.cached >>= fun _ => pure true : GenRoutine Bool).rescue
    fun _ => pure false).run c.answer w = _
  cases c.cached <;> rfl

/-- After the flip the activation returns. -/
theorem run_flipped {old : Option GenerationRow} {build transport : String} {inc : Incarnation}
    {d' : Db} (flipped : (Operator.flip old g).run c.answer w = (.ok (), { w with db := d' })) :
    ∃ w', (Operator.flipAndAdopt old build g e transport inc).run c.answer w =
      (.ok (.activated g build e c.cached.isOk), w') ∧ w'.db = d' := by
  rw [Operator.flipAndAdopt, Prog.run_bind, flipped]
  dsimp only
  rw [Prog.run_bind, run_cache]
  exact ⟨_, rfl, rfl⟩

/-- A flip that the store does not fail. -/
theorem run_flip {old : Option GenerationRow}
    (launched : Launched db w.db g e .serving (some e)) (known : OldActive db old) (named : g ≠ "")
    (goes : c.flipped = none) :
    ∃ d', (Operator.flip old g).run c.answer w = (.ok (), { w with db := d' }) ∧
      Flipped db d' g e old := by
  cases old with
  | none =>
    obtain ⟨d', done, flipped⟩ := launched.flipAlone named
    have called : (Call.setGenerationLifecycleStateAtomic g g .active .ready .ready).apply w.db =
      .ok d' := done
    refine ⟨d', ?_, flipped⟩
    rw [Operator.flip, run_write, Course.writes]
    simp only [Course.fault, goes, called]
  | some row =>
    obtain ⟨found, active, named'⟩ := known row rfl
    obtain ⟨d', done, flipped⟩ := launched.flip named found active named'
    have called : (Call.setGenerationLifecycleStateAtomic row.generationId g .draining .active
      .ready).apply w.db = .ok d' := done
    refine ⟨d', ?_, flipped⟩
    rw [Operator.flip, run_write, Course.writes]
    simp only [Course.fault, goes, called]

theorem run_flip_fails {old : Option GenerationRow} {raised : Raised}
    (fails : c.flipped = some raised) : (Operator.flip old g).run c.answer w = (.error raised, w) := by
  cases old <;>
    simp only [Operator.flip, run_write, Course.writes, Course.fault, fails]

/-- A promoted launch takes over exactly when the flip goes through and every active generation is
the one it drains. -/
theorem meets_flip {old : Option GenerationRow} {build transport : String} {inc : Incarnation}
    (launched : Launched db w.db g e .serving (some e)) (known : OldActive db old)
    (named : g ≠ "") :
    Meets db ((Operator.flipAndAdopt old build g e transport inc).run c.answer w) ↔
      c.flipped = none ∧ ∀ g', db.Active g' → old.any (·.generationId = g') := by
  cases fault : c.flipped with
  | some raised =>
    have kept : ¬ Restored db w.db := fun restored => by
      cases (launched.restored_iff.mp restored).1
    rw [Operator.flipAndAdopt, Prog.run_bind, run_flip_fails fault]
    simp [Meets, kept]
  | none =>
    obtain ⟨d', ran, flipped⟩ := run_flip launched known named fault
    obtain ⟨w', returned, rfl⟩ := run_flipped (e := e) ran
    rw [returned]
    have new : w'.db.Active g := by
      rw [Db.Active, flipped.lifecycle, if_pos rfl]
    have other : ∀ g', db.Active g' → g' ≠ g := by
      rintro g' active rfl
      rw [Db.Active, lifecycleOf_eq_none.mpr launched.newGeneration] at active
      cases active
    simp only [Meets, new, flipped.serves, flipped.pointer, true_and]
    refine forall_congr' fun g' => forall_congr' fun active => ?_
    rw [flipped.lifecycle, if_neg (other g' active)]
    split
    · rename_i drained
      simpa using drained
    · rename_i spared
      rw [show db.lifecycleOf g' = some .active from active]
      simpa using spared

/-! ### The promotion -/

/-- The promotion with its undo, and then the takeover. -/
theorem meets_settle {build transport : String} {holder : Holder}
    (launched : Launched db w.db c.newGid.value c.newEpoch.value .starting none)
    (large : w.atLarge = true) (known : OldActive db (c.old db)) :
    Meets db ((do
      exceptNelix (write (.casEpochServing c.newGid.value c.newEpoch.value none
          (some (at_.incarnationMeta holder.incarnation)))) fun e => do
        let _ ← reapHolder c.newGid.value (some holder.incarnation)
        write (.reconcileEpochDead c.newGid.value c.newEpoch.value)
        .raise (.nelix e)
      Operator.flipAndAdopt (c.old db) build c.newGid.value c.newEpoch.value transport
        holder.incarnation).run c.answer w) ↔ c.Settles db holder := by
  have named := c.newGid.ne_empty
  have named' := c.newEpoch.ne_empty
  -- A contract error of the promotion is undone and raised again.
  have undo (x : NelixError) (more : Unit → GenRoutine Operator.ActivateReply) :
      Meets db (((do
        let _ ← reapHolder c.newGid.value (some holder.incarnation)
        write (.reconcileEpochDead c.newGid.value c.newEpoch.value)
        .raise (.nelix x) : GenRoutine Unit) >>= more).run c.answer w) ↔
        c.Undoes (some holder.incarnation) := by
    rw [← meets_undo launched (.inl rfl) (by simp) large named named' (.nelix x)]
    simp only [Prog.bind_assoc]
    rfl
  have kept : ¬ Restored db w.db := fun restored => by cases (launched.restored_iff.mp restored).1
  rw [Prog.run_bind, exceptNelix, Prog.run_rescue, run_write, Course.writes, Course.Settles,
    Course.fault]
  cases fault : c.promoted with
  | some raised =>
    cases raised with
    | nelix x =>
      have undone := undo x fun _ => Operator.flipAndAdopt (c.old db) build c.newGid.value
        c.newEpoch.value transport holder.incarnation
      rw [Prog.run_bind] at undone
      exact undone
    | _ => simp [Prog.raise, Meets, kept]
  | none =>
    by_cases idle : ∀ e, ¬ db.Serves c.newGid.value e
    · obtain ⟨d', done, promoted⟩ :=
        launched.promote named named' (at_.incarnationMeta_ne holder.incarnation) idle
      have called : (Call.casEpochServing c.newGid.value c.newEpoch.value none
        (some (at_.incarnationMeta holder.incarnation))).apply w.db = .ok d' := done
      simp only [called]
      let w' : Attempt := { w with db := d' }
      have flips : Meets db ((Operator.flipAndAdopt (c.old db) build c.newGid.value
          c.newEpoch.value transport holder.incarnation).run c.answer w') ↔
          c.flipped = none ∧ ∀ g', db.Active g' → (c.old db).any (·.generationId = g') :=
        meets_flip promoted known named
      refine flips.trans ?_
      simp [idle]
    · obtain ⟨x, refused⟩ :=
        launched.promote_refused named named' (at_.incarnationMeta_ne holder.incarnation) idle
      have called : (Call.casEpochServing c.newGid.value c.newEpoch.value none
        (some (at_.incarnationMeta holder.incarnation))).apply w.db = .error (.nelix x) := refused
      simp only [called]
      have undone := undo x fun _ => Operator.flipAndAdopt (c.old db) build c.newGid.value
        c.newEpoch.value transport holder.incarnation
      rw [Prog.run_bind] at undone
      rw [undone]
      simp [idle]

/-- From the running daemon on. -/
theorem meets_promote {build transport : String} {incarnation : Option Incarnation}
    (launched : Launched db w.db c.newGid.value c.newEpoch.value .starting none)
    (large : w.atLarge = true) (first : w.checks = 0) (known : OldActive db (c.old db)) :
    Meets db ((Operator.promote at_ (c.old db) build c.newGid.value c.newEpoch.value transport
      incarnation).run c.answer w) ↔ c.Continues db incarnation := by
  have named := c.newGid.ne_empty
  have named' := c.newEpoch.ne_empty
  have kept : ¬ Restored db w.db := fun restored => by cases (launched.restored_iff.mp restored).1
  obtain ⟨k, checked⟩ : ∃ k, (Operator.healthCheck c.newGid.value transport c.newEpoch.value build
      Operator.healthTries).run c.answer w =
      (c.verdict w.checks Operator.healthTries, { w with checks := k }) :=
    run_healthCheck Operator.healthTries w
  let w' : Attempt := { w with checks := k }
  have launched' : Launched db w'.db c.newGid.value c.newEpoch.value .starting none := launched
  have undo (message : String) : Meets db ((do
      let _ ← reapHolder c.newGid.value incarnation
      (Operator.buried c.newGid.value c.newEpoch.value message :
        GenRoutine Operator.ActivateReply)).run c.answer w') ↔ c.Undoes incarnation :=
    meets_undo launched' (.inl rfl) (by simp) large named named' _
  rw [Operator.promote, Prog.run_bind, checked, first, Course.Continues]
  match c.verdict 0 Operator.healthTries with
  | .error x => simp [Meets, kept]
  | .ok false =>
    simp only [if_true]
    cases incarnation with
    | some known => exact undo _
    | none =>
      -- Nobody knows which daemon to stop, so asking for a reap would change nothing.
      have idle : (reapHolder c.newGid.value none).run c.answer w' = (.ok false, w') := by
        rw [run_reapHolder]
        simp [Course.reaps, w']
      have undone := undo "generation health check failed (identity triple)"
      rw [Prog.run_bind, idle] at undone
      exact undone
  | .ok true =>
    have read : (liveLockHolder c.newGid.value).run c.answer w' = (c.holder, w') := rfl
    simp only [Bool.true_eq_false, if_false]
    rw [Prog.run_bind, read]
    match c.holder with
    | .error x => simp [Meets, kept, w']
    | .ok none => exact undo _
    | .ok (some holder) => exact meets_settle launched' large known

/-! ### The whole activation -/

theorem oldActive_old (c : Course) (db : Db) : OldActive db (c.old db) := by
  intro row here
  unfold Course.old at here
  cases listed : c.lists db with
  | error x => simp [listed] at here
  | ok gens =>
    simp only [listed] at here
    have shown := List.mem_filter.mp (List.mem_of_head? here)
    have read : db.listGenerations = .ok gens := by
      unfold Course.lists at listed
      split at listed
      · cases listed
      · exact listed
    refine ⟨found_of_listed read shown.1, of_decide_eq_true shown.2, ?_⟩
    have member := (mem_listGenerations read row).mp shown.1
    simp only [Db.listGenerations, bind_ok, require_ok, exists_const] at read
    have readable := read.1 row member
    simp only [GenerationRow.readable, Bool.and_eq_true, decide_eq_true_eq] at readable
    exact readable.1.1.1

theorem refused_of_listGenerations {x : Raised} (fails : db.listGenerations = .error x) :
    ∃ e, x = .nelix e := by
  unfold Db.listGenerations require at fails
  by_cases readable : ∀ row ∈ db.generations.rows, row.readable = true
  · rw [if_pos readable] at fails
    cases fails
  · rw [if_neg readable] at fails
    exact ⟨_, (Except.error.inj fails).symm⟩

theorem run_findOld (w : Attempt) :
    (c.Stops ∧ ∃ x, Operator.findOld.run c.answer w = (.error x, w)) ∨
      (¬ c.Stops ∧ Operator.findOld.run c.answer w = (.ok (c.old w.db), w)) := by
  have listing : (listGenerations .activate).run c.answer w = (c.lists w.db, w) := rfl
  rw [Operator.findOld, exceptNelix, Prog.run_rescue, Prog.run_bind, listing, Course.old,
    Course.lists, Course.Stops]
  cases fault : c.listed with
  | none =>
    right
    cases read : w.db.listGenerations with
    | ok gens => exact ⟨by simp, rfl⟩
    | error x =>
      obtain ⟨e, rfl⟩ := refused_of_listGenerations read
      exact ⟨by simp, rfl⟩
  | some x =>
    cases x with
    | nelix e => exact .inr ⟨by simp, rfl⟩
    | _ => exact .inl ⟨⟨_, rfl, by simp⟩, _, rfl⟩

/-- The activation after its two inserts. -/
def launch (at_ : Deployment) (old : Option GenerationRow) (buildId g e : String) :
    GenRoutine Operator.ActivateReply := do
  supervise g
  ensureDirs g
  let (incarnation, transport) ← (ensureRunning g (some buildId) e).rescue fun raised =>
    Operator.buried g e s!"failed to spawn generation daemon: {at_.shown raised}"
  Operator.promote at_ old buildId g e transport incarnation

/-- What the activation of a launch comes to. -/
theorem meets_launch {build : String}
    (launched : Launched db w.db c.newGid.value c.newEpoch.value .starting none)
    (first : w.checks = 0) :
    Meets db ((launch at_ (c.old db) build c.newGid.value c.newEpoch.value).run c.answer w) ↔
      c.dirs = .ok () ∧
        match c.spawned with
        | .error _ => c.buried = none ∧ c.leaves = false
        | .ok (incarnation, _) => c.Continues db incarnation := by
  have kept : ¬ Restored db w.db := fun restored => by cases (launched.restored_iff.mp restored).1
  have supervised : (supervise c.newGid.value).run c.answer w = (.ok (), w) := by
    rw [supervise, if_pos c.newGid.valid]
    rfl
  have made : (ensureDirs c.newGid.value).run c.answer w = (c.dirs, w) := rfl
  rw [launch, Prog.run_bind, supervised]
  dsimp only
  rw [Prog.run_bind, made]
  cases dirs : c.dirs with
  | error x => simp [Meets, kept]
  | ok _ =>
    let w' : Attempt := { w with atLarge := c.spawned.isOk || c.leaves }
    have started : (ensureRunning c.newGid.value (some build) c.newEpoch.value).run c.answer w =
        (c.spawned, w') := rfl
    dsimp only
    rw [Prog.run_bind, Prog.run_rescue, started]
    cases spawned : c.spawned with
    | ok r =>
      have large : w'.atLarge = true := by simp [w', spawned, Except.isOk, Except.toBool]
      have launched' : Launched db w'.db c.newGid.value c.newEpoch.value .starting none := launched
      simp only [true_and]
      exact meets_promote launched' large first (oldActive_old c db)
    | error x =>
      obtain ⟨d', buried, dead⟩ :=
        launched.bury (.inl rfl) c.newGid.ne_empty c.newEpoch.ne_empty
      have called : (Call.reconcileEpochDead c.newGid.value c.newEpoch.value).apply w'.db =
        .ok d' := buried
      dsimp only
      rw [Operator.buried, Prog.run_bind, run_write, Course.writes, Course.fault]
      cases fault : c.buried with
      | some raised => simp [Meets, kept, w']
      | none => simp [called, refused, Prog.raise, Meets, dead.restored_iff, w', spawned, Except.isOk, Except.toBool]

/-- The two inserts go through exactly where an activation begins. -/
theorem begins_iff {build : String} (goes : ¬ c.Stops) : c.Begins db build ↔
    ∃ d d', c.writes (.createGeneration c.newGid.value (some build) .ready none c.clock) db = .ok d ∧
      c.writes (.insertEpoch c.newEpoch.value c.newGid.value none c.clock) d = .ok d' := by
  have named := c.newGid.ne_empty
  have named' := c.newEpoch.ne_empty
  unfold Course.Begins Course.writes
  constructor
  · rintro ⟨-, created, inserted, built, finite, newGid, newEpoch⟩
    have built' : some build ≠ some "" := fun empty => built (Option.some.inj empty)
    obtain ⟨d, done⟩ := createGeneration_ok_iff.mpr ⟨named, built', finite, newGid⟩
    obtain ⟨epochs, there⟩ := createGeneration_leaves done
    obtain ⟨d', done'⟩ :=
      insertEpoch_ok_iff.mpr ⟨named', named, finite, (epochs _).trans newEpoch, there⟩
    refine ⟨d, d', ?_, ?_⟩
    · simp only [Course.fault, created]
      exact done
    · simp only [Course.fault, inserted]
      exact done'
  · rintro ⟨d, d', done, done'⟩
    cases created : c.created with
    | some x => simp [Course.fault, created] at done
    | none =>
      cases inserted : c.inserted with
      | some x => simp [Course.fault, inserted] at done'
      | none =>
        simp only [Course.fault, created] at done
        simp only [Course.fault, inserted] at done'
        obtain ⟨-, built, finite, newGid⟩ := createGeneration_ok_iff.mp ⟨d, done⟩
        obtain ⟨-, -, -, newEpoch, -⟩ := insertEpoch_ok_iff.mp ⟨d', done'⟩
        have epochs := (createGeneration_leaves done).1
        exact ⟨goes, rfl, rfl, fun empty => built (congrArg some empty), finite, newGid,
          (epochs _).symm.trans newEpoch⟩

/-- What goes through is what the store does. -/
theorem apply_of_writes {call : Call} {d : Db} (done : c.writes call db = .ok d) :
    call.apply db = .ok d := by
  unfold Course.writes at done
  split at done
  · cases done
  · exact done

/-- An activation undoes what it did where it raises, and leaves the new generation active and the
old one draining where it returns, in exactly these courses. -/
theorem activation_recovers_iff (at_ : Deployment) (c : Course) (db : Db) (cell : Cell)
    (buildId : String) :
    Meets db ((Operator.activateProbed at_ buildId).run c.answer { db := db, cell := cell }) ↔
      c.Recovers db buildId := by
  let w : Attempt := { db := db, cell := cell }
  let w' : Attempt := { w with named := true }
  have unfolded : (Operator.activateProbed at_ buildId).run c.answer w =
      (Operator.findOld >>= fun old => do
        let g ← newGenerationId
        write (.createGeneration g (some buildId) .ready none c.clock)
        let e ← newGenerationId
        write (.insertEpoch e g none c.clock)
        launch at_ old buildId g e).run c.answer w := rfl
  change Meets db ((Operator.activateProbed at_ buildId).run c.answer w) ↔ _
  rw [unfolded, Prog.run_bind]
  rcases run_findOld w with ⟨stops, x, raised⟩ | ⟨goes, found⟩
  · rw [raised]
    exact ⟨fun _ begins => absurd stops begins.1, fun _ => ⟨.refl db, rfl⟩⟩
  · rw [found, Course.Recovers, begins_iff goes]
    change Meets db ((write (.createGeneration c.newGid.value (some buildId) .ready none c.clock) >>=
      fun _ => do
        let e ← newGenerationId
        write (.insertEpoch e c.newGid.value none c.clock)
        launch at_ (c.old db) buildId c.newGid.value e).run c.answer w') ↔ _
    rw [Prog.run_bind, run_write]
    cases created : c.writes (.createGeneration c.newGid.value (some buildId) .ready none c.clock)
        db with
    | error x =>
      refine ⟨fun _ begins => ?_, fun _ => ⟨.refl db, rfl⟩⟩
      obtain ⟨d, d', done, -⟩ := begins
      cases done
    | ok d =>
      change Meets db ((write (.insertEpoch c.newEpoch.value c.newGid.value none c.clock) >>=
        fun _ => launch at_ (c.old db) buildId c.newGid.value c.newEpoch.value).run c.answer
          { w' with db := d }) ↔ _
      rw [Prog.run_bind, run_write]
      cases inserted : c.writes (.insertEpoch c.newEpoch.value c.newGid.value none c.clock) d with
      | error x =>
        refine ⟨fun _ begins => ?_, fun _ => ⟨?_, rfl⟩⟩
        · obtain ⟨d1, d', done, done'⟩ := begins
          rw [Except.ok.inj done, done'] at inserted
          cases inserted
        · exact restored_created (apply_of_writes created)
      | ok d' =>
        let w3 : Attempt := { w' with db := d' }
        have launched : Launched db w3.db c.newGid.value c.newEpoch.value .starting none :=
          launch_ok (apply_of_writes created) (apply_of_writes inserted)
        refine (meets_launch launched rfl).trans ⟨fun met _ => met, fun met => ?_⟩
        exact met ⟨d, d', rfl, inserted⟩

/-! ### A flip that fails -/

/-- Everything goes well up to the flip, which finds the store locked. -/
def lockedCourse : Course where
  clock := .finite 2
  newGid := ⟨"g-000000000000000000000000000000b1", by decide +kernel⟩
  newEpoch := ⟨"g-000000000000000000000000000000b2", by decide +kernel⟩
  spawned := .ok (some ⟨11, some "fp"⟩, "/g.sock")
  healthy _ := .ok true
  holder := .ok (some ⟨⟨11, some "fp"⟩, some "/g.sock"⟩)
  reaped := .ok true
  flipped := some (.nelix ⟨.storeUnavailable, "database is locked"⟩)

/-- The activation raises with its epoch serving and its daemon running. -/
theorem activation_recovers_iff_locked :
    ¬ Meets servedStore ((Operator.activateProbed sampleDeployment "build-2").run
      lockedCourse.answer { db := servedStore }) := by
  have ends : ((Operator.activateProbed sampleDeployment "build-2").run lockedCourse.answer
      { db := servedStore }).1.isOk = false ∧
    ((Operator.activateProbed sampleDeployment "build-2").run lockedCourse.answer
      { db := servedStore }).2.atLarge = true := by decide +kernel
  generalize (Operator.activateProbed sampleDeployment "build-2").run lockedCourse.answer
    { db := servedStore } = out at ends
  intro met
  match out, ends with
  | (.error x, w), ends =>
    have small : w.atLarge = false := met.2
    rw [ends.2] at small
    cases small

end Nelix.Router
