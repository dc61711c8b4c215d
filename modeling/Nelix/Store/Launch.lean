import Nelix.Store.Active

/-!
# Launching a generation

A new generation is created ready with a starting epoch; the epoch is promoted and the generation
made active, or the epoch is marked dead. `Launched` says where the launch stands, beside a
database that is otherwise as it was before.
-/
namespace Nelix.Store

open Contracts Core

variable {db d d' : Db} {g e : String} {state : ProcessState} {pointer : Option String}

/-- The active generations are those from before, and every epoch that was not there before is dead
and pointed at by nobody. -/
structure Restored (db d : Db) : Prop where
  active : ∀ g, d.Active g ↔ db.Active g
  dead : ∀ e row, db.findEpoch e = none → d.findEpoch e = some row →
    row.processState = .dead ∧ d.pointer row.generationId = none

/-- The generation is ready beside those from before, with one epoch of its own. -/
structure Launched (db d : Db) (g e : String) (state : ProcessState) (pointer : Option String) :
    Prop where
  newEpoch : db.findEpoch e = none
  newGeneration : db.findGeneration g = none
  epoch : ∃ row, d.findEpoch e = some row ∧ row.generationId = g ∧ row.processState = state
  generation : ∃ row, d.findGeneration g = some row ∧ row.currentEpoch = pointer ∧
    row.lifecycleState = .ready
  epochs : ∀ e', e' ≠ e → d.findEpoch e' = db.findEpoch e'
  generations : ∀ g', g' ≠ g → d.findGeneration g' = db.findGeneration g'

theorem Restored.refl (db : Db) : Restored db db where
  active _ := Iff.rfl
  dead e row absent found := by
    rw [absent] at found
    cases found

/-- A generation without an epoch changes nothing. -/
theorem restored_created {build snapshot : Option String} {created : Reading}
    (done : db.createGeneration g build .ready snapshot created = .ok d) : Restored db d := by
  have called : (Call.createGeneration g build .ready snapshot created).apply db = .ok d := done
  refine ⟨Call.calm_active rfl called, fun e row absent found => ?_⟩
  simp only [Db.createGeneration, bind_ok, demand_ok, pure, Except.pure, Except.ok.injEq] at done
  obtain ⟨_, -, _, -, _, -, _, -, _, -, rfl⟩ := done
  have there : db.findEpoch e = some row := found
  rw [absent] at there
  cases there

theorem isSome_toFinite? {created : Reading} :
    created.toFinite?.isSome = true ↔ ∃ t, created = .finite t := by
  cases created <;> simp [Reading.toFinite?]

/-- What it takes for a new generation to be created. -/
theorem createGeneration_ok_iff {build : Option String} {lifecycle : Lifecycle}
    {created : Reading} :
    (∃ d, db.createGeneration g build lifecycle none created = .ok d) ↔ g ≠ "" ∧ build ≠ some "" ∧
      created.toFinite?.isSome = true ∧ db.findGeneration g = none := by
  simp only [Db.createGeneration, requireText, requireTextOrNone, bind_ok, require_ok, demand_ok,
    timestamp_ok, pure, Except.pure, Except.ok.injEq, exists_const, isSome_toFinite?]
  constructor
  · rintro ⟨d, named, built, -, t, finite, generations, inserted, -⟩
    exact ⟨named, built, ⟨t, finite⟩, Table.fresh_of_insert inserted⟩
  · rintro ⟨named, built, ⟨t, finite⟩, fresh⟩
    let row : GenerationRow := ⟨g, build, lifecycle, none, none, t⟩
    have fresh' : db.generations.find? (Keyed.key row) = none := fresh
    obtain ⟨generations, inserted⟩ := Table.exists_insert fresh'
    exact ⟨_, named, built, (by simp), t, finite, generations, inserted, rfl⟩

theorem timestamp_error {value : Reading} {name : String} {x : Raised} :
    timestamp value name = .error x ↔ value.toFinite? = none ∧
      ∃ message, timestamp value name = refuse .invalidRequest message ∧
        x = .nelix ⟨.invalidRequest, message⟩ := by
  cases value <;> simp [timestamp, Reading.toFinite?, refuse, eq_comm]

/-- A generation is refused as a duplicate exactly where the arguments are well formed. -/
theorem createGeneration_refused {build : Option String} {lifecycle : Lifecycle}
    {created : Reading} {x : Raised}
    (fails : db.createGeneration g build lifecycle none created = .error x) :
    ∃ message, (x = .nelix ⟨.duplicateStart, message⟩ ∧ db.findGeneration g ≠ none ∧ g ≠ "" ∧
        build ≠ some "" ∧ created.toFinite?.isSome = true) ∨
      (x = .nelix ⟨.invalidRequest, message⟩ ∧
        ¬ (g ≠ "" ∧ build ≠ some "" ∧ created.toFinite?.isSome = true)) := by
  simp only [Db.createGeneration, requireText, requireTextOrNone, bind_error, require_error,
    require_ok, demand_error, timestamp_error, timestamp_ok, pure, Except.pure, reduceCtorEq,
    and_false, or_false, exists_false, exists_const, Table.insert_eq_none] at fails
  obtain ⟨unnamed, rfl⟩ | ⟨named, ⟨unbuilt, rfl⟩ | ⟨built, ⟨unshaped, rfl⟩ | ⟨-, ⟨infinite, m, -, rfl⟩ |
    ⟨t, rfl, ⟨row, found⟩, rfl⟩⟩⟩⟩ := fails
  · exact ⟨_, .inr ⟨rfl, fun valid => unnamed valid.1⟩⟩
  · exact ⟨_, .inr ⟨rfl, fun valid => unbuilt valid.2.1⟩⟩
  · exact absurd (by simp) unshaped
  · exact ⟨_, .inr ⟨rfl, fun valid => by simp [infinite] at valid⟩⟩
  · have there : db.findGeneration g = some row := found
    exact ⟨_, .inl ⟨rfl, there ▸ Option.some_ne_none _, named, built, rfl⟩⟩

/-- What it takes for its first epoch to be inserted. -/
theorem insertEpoch_ok_iff {created : Reading} :
    (∃ d, db.insertEpoch e g none created = .ok d) ↔ e ≠ "" ∧ g ≠ "" ∧
      created.toFinite?.isSome = true ∧ db.findEpoch e = none ∧ db.findGeneration g ≠ none := by
  simp only [Db.insertEpoch, requireText, requireTextOrNone, bind_ok, require_ok, demand_ok,
    timestamp_ok, pure, Except.pure, Except.ok.injEq, exists_const, isSome_toFinite?]
  constructor
  · rintro ⟨d, named, named', -, t, finite, epochs, inserted, there, -⟩
    exact ⟨named, named', ⟨t, finite⟩, Table.fresh_of_insert inserted, there⟩
  · rintro ⟨named, named', ⟨t, finite⟩, fresh, there⟩
    let row : EpochRow := ⟨e, g, .starting, .opened, .null, none, none, t⟩
    have fresh' : db.epochs.find? (Keyed.key row) = none := fresh
    obtain ⟨epochs, inserted⟩ := Table.exists_insert fresh'
    exact ⟨_, named, named', (by simp), t, finite, epochs, inserted, there, rfl⟩

theorem createGeneration_leaves {build : Option String} {lifecycle : Lifecycle}
    {created : Reading} (done : db.createGeneration g build lifecycle none created = .ok d) :
    (∀ e, d.findEpoch e = db.findEpoch e) ∧ d.findGeneration g ≠ none := by
  simp only [Db.createGeneration, bind_ok, demand_ok, pure, Except.pure, Except.ok.injEq] at done
  obtain ⟨_, -, _, -, _, -, t, -, generations, inserted, rfl⟩ := done
  refine ⟨fun _ => rfl, ?_⟩
  have found := (Table.find?_insert inserted g).trans (if_pos rfl)
  exact fun absent => Option.some_ne_none _ (found.symm.trans absent)

/-- Where the two inserts go through, the launch has begun. -/
theorem launch_ok {build : Option String} {created : Reading}
    (done : db.createGeneration g build .ready none created = .ok d)
    (done' : d.insertEpoch e g none created = .ok d') : Launched db d' g e .starting none := by
  simp only [Db.createGeneration, bind_ok, demand_ok, pure, Except.pure, Except.ok.injEq] at done
  obtain ⟨_, -, _, -, _, -, t, -, generations, inserted, rfl⟩ := done
  simp only [Db.insertEpoch, bind_ok, demand_ok, require_ok, pure, Except.pure, Except.ok.injEq,
    exists_const] at done'
  obtain ⟨_, -, _, -, _, -, t', -, epochs, inserted', -, rfl⟩ := done'
  have named (e' : String) := Table.find?_insert inserted' e'
  have known (g' : String) := Table.find?_insert inserted g'
  refine ⟨Table.fresh_of_insert inserted', Table.fresh_of_insert inserted,
    ⟨_, (named e).trans (if_pos rfl), rfl, rfl⟩, ⟨_, (known g).trans (if_pos rfl), rfl, rfl⟩,
    fun e' other => (named e').trans (if_neg fun same => other same.symm),
    fun g' other => (known g').trans (if_neg fun same => other same.symm)⟩

theorem Launched.lifecycleOf (launched : Launched db d g e state pointer) (g' : String) :
    d.lifecycleOf g' = if g' = g then some .ready else db.lifecycleOf g' := by
  split
  · rename_i same
    obtain ⟨row, found, -, ready⟩ := launched.generation
    rw [same, lifecycleOf_of_found found, ready]
  · rename_i other
    rw [Db.lifecycleOf, launched.generations g' other, Db.lifecycleOf]

theorem Launched.active (launched : Launched db d g e state pointer) (g' : String) :
    d.Active g' ↔ db.Active g' := by
  rw [Db.Active, launched.lifecycleOf, Db.Active]
  split
  · rename_i same
    rw [same, lifecycleOf_eq_none.mpr launched.newGeneration]
    exact ⟨fun ready => (by cases ready), fun absent => (by cases absent)⟩
  · rfl

theorem Launched.pointer_eq (launched : Launched db d g e state pointer) : d.pointer g = pointer := by
  obtain ⟨row, found, points, -⟩ := launched.generation
  rw [pointer_of_findGeneration found, points]

/-- A launch leaves everything as it was exactly when its epoch is dead and its pointer cleared. -/
theorem Launched.restored_iff (launched : Launched db d g e state pointer) :
    Restored db d ↔ state = .dead ∧ pointer = none := by
  obtain ⟨row, found, owned, stands⟩ := launched.epoch
  constructor
  · intro restored
    have here := restored.dead e row launched.newEpoch found
    rw [stands, owned, launched.pointer_eq] at here
    exact here
  · rintro ⟨rfl, rfl⟩
    refine ⟨launched.active, fun e' row' absent found' => ?_⟩
    by_cases same : e' = e
    · subst same
      obtain rfl : row = row' := Option.some.inj (found.symm.trans found')
      exact ⟨stands, owned ▸ launched.pointer_eq⟩
    · rw [launched.epochs e' same, absent] at found'
      cases found'

/-! ### The steps of a launch -/

/-- The launch's epoch is written anew. -/
theorem Launched.withEpoch (launched : Launched db d g e state pointer) (row : EpochRow)
    (named : row.generationEpoch = e) (owned : row.generationId = g)
    (epochs : d'.epochs = d.epochs.update row) (generations : d'.generations = d.generations) :
    Launched db d' g e row.processState pointer := by
  obtain ⟨old, found, -, -⟩ := launched.epoch
  have kept (g' : String) : d'.findGeneration g' = d.findGeneration g' := by
    rw [Db.findGeneration, generations, Db.findGeneration]
  subst named
  refine ⟨launched.newEpoch, launched.newGeneration, ⟨row, ?_, owned, rfl⟩, ?_, fun e' other => ?_,
    fun g' other => (kept g').trans (launched.generations g' other)⟩
  · rw [Db.findEpoch, epochs]
    exact Table.find?_update_self found
  · simpa only [kept] using launched.generation
  · have apart : Keyed.key row ≠ e' := fun same => other same.symm
    rw [Db.findEpoch, epochs, Table.find?_update_ne apart]
    exact launched.epochs e' other

/-- The launch's generation is written anew. -/
theorem Launched.withGeneration (launched : Launched db d g e state pointer) (row : GenerationRow)
    (named : row.generationId = g) (ready : row.lifecycleState = .ready)
    (generations : d'.generations = d.generations.update row) (epochs : d'.epochs = d.epochs) :
    Launched db d' g e state row.currentEpoch := by
  obtain ⟨old, found, -, -⟩ := launched.generation
  have kept (e' : String) : d'.findEpoch e' = d.findEpoch e' := by
    rw [Db.findEpoch, epochs, Db.findEpoch]
  subst named
  refine ⟨launched.newEpoch, launched.newGeneration, ?_, ⟨row, ?_, rfl, ready⟩,
    fun e' other => (kept e').trans (launched.epochs e' other), fun g' other => ?_⟩
  · simpa only [kept] using launched.epoch
  · rw [Db.findGeneration, generations]
    exact Table.find?_update_self found
  · have apart : Keyed.key row ≠ g' := fun same => other same.symm
    rw [Db.findGeneration, generations, Table.find?_update_ne apart]
    exact launched.generations g' other

/-- The reconciliation of a launch goes through. -/
theorem Launched.bury (launched : Launched db d g e state pointer)
    (points : pointer = none ∨ pointer = some e) (named : g ≠ "") (named' : e ≠ "") :
    ∃ d', d.reconcileEpochDead g e = .ok d' ∧ Launched db d' g e .dead none := by
  obtain ⟨row, found, owned, -⟩ := launched.epoch
  have epochNamed : row.generationEpoch = e := Db.generationEpoch_of_findEpoch found
  let buried : EpochRow := { row with processState := .dead }
  have dead : Launched db (d.setEpochRow buried) g e .dead pointer :=
    launched.withEpoch buried epochNamed owned rfl rfl
  refine ⟨(d.setEpochRow buried).clearPointer g e, ?_, ?_⟩
  · simp only [Db.reconcileEpochDead, requireText, bind_ok, require_ok, Db.requireOwned_ok, pure,
      Except.pure, Except.ok.injEq, exists_const]
    exact ⟨named, named', row, ⟨found, owned⟩, rfl⟩
  · obtain ⟨gen, foundGen, current, ready⟩ := dead.generation
    unfold Db.clearPointer
    simp only [foundGen]
    split
    · have generationNamed : gen.generationId = g := Db.generationId_of_findGeneration foundGen
      exact dead.withGeneration { gen with currentEpoch := none } generationNamed ready rfl rfl
    · rename_i elsewhere
      rw [current] at elsewhere
      exact points.resolve_right elsewhere ▸ dead

/-- Which epochs serve the new generation, beside its own. -/
theorem Launched.serves (launched : Launched db d g e state pointer) {e' : String} (other : e' ≠ e)
    (g' : String) : d.Serves g' e' ↔ db.Serves g' e' := by
  rw [Db.Serves, launched.epochs e' other, Db.Serves]

theorem Launched.servingElsewhere_iff (launched : Launched db d g e state pointer) {row : EpochRow}
    (found : d.findEpoch e = some row) (owned : row.generationId = g) :
    d.servingElsewhere row = false ↔ ∀ e', ¬ db.Serves g e' := by
  rw [servingElsewhere_eq_false, owned, Db.generationEpoch_of_findEpoch found]
  constructor
  · intro alone e' serves
    have other : e' ≠ e := by
      rintro rfl
      obtain ⟨there, foundThere, -⟩ := serves
      rw [launched.newEpoch] at foundThere
      cases foundThere
    exact other (alone e' ((launched.serves other g).mpr serves))
  · intro idle e' serves
    by_contra other
    exact idle e' ((launched.serves other g).mp serves)

/-- The generation's only epoch is promoted. -/
theorem Launched.promote {incarnationMeta : String} (launched : Launched db d g e .starting none)
    (named : g ≠ "") (named' : e ≠ "") (told : incarnationMeta ≠ "")
    (idle : ∀ e', ¬ db.Serves g e') :
    ∃ d', d.casEpochServing g e none (some incarnationMeta) = .ok d' ∧
      Launched db d' g e .serving (some e) := by
  obtain ⟨row, found, owned, starting⟩ := launched.epoch
  obtain ⟨gen, foundGen, current, ready⟩ := launched.generation
  have alone := (launched.servingElsewhere_iff found owned).mpr idle
  have epochNamed : row.generationEpoch = e := Db.generationEpoch_of_findEpoch found
  have generationNamed : gen.generationId = g := Db.generationId_of_findGeneration foundGen
  let gen' : GenerationRow := { gen with currentEpoch := some e }
  let row' : EpochRow := { row with
    processState := .serving
    incarnationMeta := (some incarnationMeta).orElse fun _ => row.incarnationMeta }
  refine ⟨(d.setGenerationRow gen').setEpochRow row', ?_, ?_⟩
  · simp only [Db.casEpochServing, requireText, requireTextOrNone, bind_ok, require_ok,
      Db.requireGeneration_ok, Db.requireOwned_ok, pure, Except.pure, Except.ok.injEq, exists_const]
    refine ⟨named, named', fun empty => told (Option.some.inj empty), gen, foundGen, current, row,
      ⟨found, owned⟩, starting, alone, rfl⟩
  · have pointed : Launched db (d.setGenerationRow gen') g e .starting (some e) :=
      launched.withGeneration gen' generationNamed ready rfl rfl
    exact pointed.withEpoch row' epochNamed owned rfl rfl

/-- Another epoch serves the generation already: the promotion is refused. -/
theorem Launched.promote_refused {incarnationMeta : String}
    (launched : Launched db d g e .starting none) (named : g ≠ "") (named' : e ≠ "")
    (told : incarnationMeta ≠ "") (busy : ¬ ∀ e', ¬ db.Serves g e') :
    ∃ x, d.casEpochServing g e none (some incarnationMeta) = .error (.nelix x) := by
  obtain ⟨row, found, owned, starting⟩ := launched.epoch
  obtain ⟨gen, foundGen, current, ready⟩ := launched.generation
  have elsewhere : d.servingElsewhere row = true := by
    rw [← Bool.not_eq_false, launched.servingElsewhere_iff found owned]
    exact busy
  have owns := Db.requireOwned_ok.mpr ⟨found, owned⟩
  have there := Db.requireGeneration_ok.mpr foundGen
  refine ⟨⟨.storeCorrupt, Db.constraintFailed⟩, ?_⟩
  simp [Db.casEpochServing, requireText, requireTextOrNone, require, named, named', told, there,
    current, owns, starting, elsewhere, refuse, bind, Except.bind]

/-! ### The flip -/

/-- What a flip of a launch comes to: the generation is active and serving, and the old one, where
there is one, drains. -/
structure Flipped (db d : Db) (g e : String) (old : Option GenerationRow) : Prop where
  serves : d.Serves g e
  pointer : d.pointer g = some e
  lifecycle : ∀ g', d.lifecycleOf g' =
    if g' = g then some .active
    else if old.any fun row => row.generationId = g' then some .draining
    else db.lifecycleOf g'

/-- What a flip writes beside the lifecycle states: nothing. -/
theorem Launched.flipped (launched : Launched db d g e .serving (some e)) {old : String}
    {moved fromOld fromNew : Lifecycle}
    (done : d.setGenerationLifecycleStateAtomic old g moved fromOld fromNew = .ok d') :
    d'.Serves g e ∧ d'.pointer g = some e := by
  have called : (Call.setGenerationLifecycleStateAtomic old g moved fromOld fromNew).apply d =
      .ok d' := done
  obtain ⟨row, found, owned, serving⟩ := launched.epoch
  cases Call.servingEffect rfl called with
  | kept _ pointer serves =>
    exact ⟨(serves g e).mpr ⟨row, found, owned, serving⟩, (pointer g).trans launched.pointer_eq⟩
  | promoted _ _ _ _ here | buried _ _ here => cases here

/-- The flip of a launch goes through and drains the old generation. -/
theorem Launched.flip (launched : Launched db d g e .serving (some e)) (named : g ≠ "")
    {row : GenerationRow} (found : db.findGeneration row.generationId = some row)
    (active : row.lifecycleState = .active) (named' : row.generationId ≠ "") :
    ∃ d', d.setGenerationLifecycleStateAtomic row.generationId g .draining .active .ready = .ok d' ∧
      Flipped db d' g e (some row) := by
  obtain ⟨gen, foundGen, -, ready⟩ := launched.generation
  have other : row.generationId ≠ g := by
    intro same
    rw [same, launched.newGeneration] at found
    cases found
  have there := (launched.generations _ other).trans found
  let d' : Db := (d.setGenerationRow { row with lifecycleState := .draining }).setGenerationRow
    { gen with lifecycleState := .active }
  have done : d.setGenerationLifecycleStateAtomic row.generationId g .draining .active .ready =
      .ok d' := by
    simp only [Db.setGenerationLifecycleStateAtomic, requireText, bind_ok, require_ok, demand_ok,
      pure, Except.pure, Except.ok.injEq, exists_const]
    exact ⟨named', named, row, there, active, gen, foundGen, ready, rfl⟩
  refine ⟨d', done, (launched.flipped done).1, (launched.flipped done).2, fun g' => ?_⟩
  have called : (Call.setGenerationLifecycleStateAtomic row.generationId g .draining .active
    .ready).apply d = .ok d' := done
  cases Call.lifecycleEffect called with
  | kept settled => cases settled
  | set _ _ here | created _ _ _ _ _ here => cases here
  | flipped _ _ _ _ _ here _ _ now =>
    cases here
    rw [now, launched.lifecycleOf]
    by_cases isNew : g' = g
    · simp [isNew]
    · simp [isNew, eq_comm]

/-- The flip of a launch without an old generation goes through. -/
theorem Launched.flipAlone (launched : Launched db d g e .serving (some e)) (named : g ≠ "") :
    ∃ d', d.setGenerationLifecycleStateAtomic g g .active .ready .ready = .ok d' ∧
      Flipped db d' g e none := by
  obtain ⟨gen, foundGen, -, ready⟩ := launched.generation
  let d' : Db := (d.setGenerationRow { gen with lifecycleState := .active }).setGenerationRow
    { gen with lifecycleState := .active }
  have done : d.setGenerationLifecycleStateAtomic g g .active .ready .ready = .ok d' := by
    simp only [Db.setGenerationLifecycleStateAtomic, requireText, bind_ok, require_ok, demand_ok,
      pure, Except.pure, Except.ok.injEq, exists_const]
    exact ⟨named, named, gen, foundGen, ready, gen, foundGen, ready, rfl⟩
  refine ⟨d', done, (launched.flipped done).1, (launched.flipped done).2, fun g' => ?_⟩
  have called : (Call.setGenerationLifecycleStateAtomic g g .active .ready .ready).apply d =
    .ok d' := done
  cases Call.lifecycleEffect called with
  | kept settled => cases settled
  | set _ _ here | created _ _ _ _ _ here => cases here
  | flipped _ _ _ _ _ here _ _ now =>
    cases here
    rw [now, launched.lifecycleOf]
    by_cases isNew : g' = g <;> simp [isNew]

end Nelix.Store
