import Nelix.Store.Serving

/-!
# The active generations

What a call does to the lifecycle states of the generations, and which of them a listing shows as
active.
-/
namespace Nelix.Store

open Contracts Core

variable {db db' : Db} {call : Call} {g : String}

/-- The lifecycle state of a generation. -/
def Db.lifecycleOf (db : Db) (generationId : String) : Option Lifecycle :=
  (db.findGeneration generationId).map GenerationRow.lifecycleState

def Db.Active (db : Db) (generationId : String) : Prop := db.lifecycleOf generationId = some .active

instance (db : Db) (g : String) : Decidable (db.Active g) := by unfold Db.Active; infer_instance

/-- No two rows are in state active. -/
def Db.OneActive (db : Db) : Prop := ∀ g g', db.Active g → db.Active g' → g = g'

def Db.NoneActive (db : Db) : Prop := ∀ g, ¬ db.Active g

theorem lifecycleOf_of_found {row : GenerationRow} (found : db.findGeneration g = some row) :
    db.lifecycleOf g = some row.lifecycleState := by rw [Db.lifecycleOf, found, Option.map_some]

theorem lifecycleOf_eq_none : db.lifecycleOf g = none ↔ db.findGeneration g = none := by
  rw [Db.lifecycleOf, Option.map_eq_none_iff]

/-! ### What a call does to the lifecycle states -/

theorem lifecycleOf_update {row : GenerationRow}
    (found : db.findGeneration row.generationId = some row) (row' : GenerationRow)
    (key : row'.generationId = row.generationId)
    (written : db'.generations = db.generations.update row') (g' : String) :
    db'.lifecycleOf g' =
      if g' = row.generationId then some row'.lifecycleState else db.lifecycleOf g' := by
  simp only [Db.lifecycleOf, Db.findGeneration, written]
  split
  · rename_i same
    subst same
    have held : db.generations.find? row'.generationId = some row := key ▸ found
    rw [← key]
    exact congrArg (Option.map GenerationRow.lifecycleState) (Table.find?_update_self held)
  · rename_i other
    have apart : Keyed.key row' ≠ g' := fun eq => other (eq.symm.trans key)
    rw [Table.find?_update_ne apart]

theorem lifecycleOf_insert (row : GenerationRow)
    (inserted : db.generations.insert row = some db'.generations) (g' : String) :
    db'.lifecycleOf g' =
      if g' = row.generationId then some row.lifecycleState else db.lifecycleOf g' := by
  simp only [Db.lifecycleOf, Db.findGeneration, Table.find?_insert inserted]
  by_cases same : g' = row.generationId
  · simp [same, Keyed.key]
  · have apart : ¬ row.generationId = g' := fun eq => same eq.symm
    simp [same, apart, Keyed.key]

/-- The call writes no lifecycle state. -/
def Call.settled : Call → Bool
  | .createGeneration .. | .setGenerationLifecycleState .. | .setGenerationLifecycleStateAtomic .. =>
    false
  | _ => true

/-- What a call does to the lifecycle states. -/
inductive LifecycleEffect (call : Call) (db db' : Db) : Prop
  | kept (settled : call.settled = true) (same : ∀ g, db'.lifecycleOf g = db.lifecycleOf g)
  | created (g : String) (build : Option String) (state : Lifecycle) (snapshot : Option String)
      (created : Reading) (here : call = .createGeneration g build state snapshot created)
      (fresh : db.lifecycleOf g = none)
      (now : ∀ g', db'.lifecycleOf g' = if g' = g then some state else db.lifecycleOf g')
  | set (g : String) (state : Lifecycle) (here : call = .setGenerationLifecycleState g state)
      (there : db.lifecycleOf g ≠ none)
      (now : ∀ g', db'.lifecycleOf g' = if g' = g then some state else db.lifecycleOf g')
  | flipped (old new : String) (moved fromOld fromNew : Lifecycle)
      (here : call = .setGenerationLifecycleStateAtomic old new moved fromOld fromNew)
      (wasOld : db.lifecycleOf old = some fromOld) (wasNew : db.lifecycleOf new = some fromNew)
      (now : ∀ g', db'.lifecycleOf g' =
        if g' = new then some .active else if g' = old then some moved else db.lifecycleOf g')

theorem flip_lifecycleOf {old new : GenerationRow} {moved : Lifecycle}
    (foundOld : db.findGeneration old.generationId = some old)
    (foundNew : db.findGeneration new.generationId = some new)
    (written : db'.generations =
      (db.generations.update { old with lifecycleState := moved }).update
        { new with lifecycleState := .active }) (g' : String) :
    db'.lifecycleOf g' =
      if g' = new.generationId then some .active
      else if g' = old.generationId then some moved else db.lifecycleOf g' := by
  let drained : GenerationRow := { old with lifecycleState := moved }
  let between : Db := db.setGenerationRow drained
  have first : ∀ g', between.lifecycleOf g' =
      if g' = old.generationId then some moved else db.lifecycleOf g' :=
    lifecycleOf_update foundOld drained rfl rfl
  -- The second row is written over what the first write left under its key.
  by_cases same : new.generationId = old.generationId
  · have held : between.findGeneration drained.generationId = some drained :=
      Table.find?_update_self foundOld
    have second : ∀ g', db'.lifecycleOf g' =
        if g' = old.generationId then some .active else between.lifecycleOf g' :=
      lifecycleOf_update held { new with lifecycleState := .active } same written
    rw [second, first]
    simp only [same]
  · have held : between.findGeneration new.generationId = some new := by
      have apart : Keyed.key drained ≠ new.generationId := fun eq => same eq.symm
      exact (Table.find?_update_ne apart).trans foundNew
    have second : ∀ g', db'.lifecycleOf g' =
        if g' = new.generationId then some .active else between.lifecycleOf g' :=
      lifecycleOf_update held { new with lifecycleState := .active } rfl written
    rw [second, first]

/-- A call that writes no lifecycle state keeps them all. -/
theorem Call.settled_lifecycle (settled : call.settled = true) (done : call.apply db = .ok db')
    (g : String) : db'.lifecycleOf g = db.lifecycleOf g := by
  cases Call.generationsEffect done with
  | kept same => rw [Db.lifecycleOf, Db.findGeneration, same]; rfl
  | created row created here => cases here ▸ settled
  | flipped old new moved here => cases here ▸ settled
  | moved row row' found move written =>
    have now := lifecycleOf_update found row' move.key written g
    cases move with
    | lifecycle state here => cases here ▸ settled
    | served | cleared | pointed | reconciled =>
      rw [now]
      split
      · rename_i same
        rw [same, lifecycleOf_of_found found]
      · rfl

/-- What any call does to the lifecycle states. -/
theorem Call.lifecycleEffect (done : call.apply db = .ok db') : LifecycleEffect call db db' := by
  by_cases settled : call.settled = true
  · exact .kept settled (Call.settled_lifecycle settled done)
  · cases call with
    | createGeneration g build state snapshot created =>
      simp only [Call.apply, Db.createGeneration, bind_ok, timestamp_ok, demand_ok, pure,
        Except.pure, Except.ok.injEq] at done
      obtain ⟨_, -, _, -, _, -, t, -, generations, inserted, rfl⟩ := done
      let row : GenerationRow := ⟨g, build, state, none, snapshot, t⟩
      have fresh : db.generations.find? row.generationId = none := Table.fresh_of_insert inserted
      exact .created g build state snapshot created rfl (lifecycleOf_eq_none.mpr fresh)
        (lifecycleOf_insert row inserted)
    | setGenerationLifecycleState g state =>
      simp only [Call.apply, Db.setGenerationLifecycleState, bind_ok, Db.requireGeneration_ok,
        pure, Except.pure, Except.ok.injEq] at done
      obtain ⟨_, -, row, found, rfl⟩ := done
      have named := Db.generationId_of_findGeneration found
      subst named
      exact .set _ state rfl (lifecycleOf_of_found found ▸ Option.some_ne_none _)
        (lifecycleOf_update found { row with lifecycleState := state } rfl rfl)
    | setGenerationLifecycleStateAtomic old new moved fromOld fromNew =>
      simp only [Call.apply, Db.setGenerationLifecycleStateAtomic, bind_ok, require_ok, demand_ok,
        pure, Except.pure, Except.ok.injEq, exists_const] at done
      obtain ⟨_, -, _, -, oldRow, foundOld, rfl, newRow, foundNew, rfl, rfl⟩ := done
      have named := Db.generationId_of_findGeneration foundOld
      have named' := Db.generationId_of_findGeneration foundNew
      subst named named'
      exact .flipped _ _ moved _ _ rfl (lifecycleOf_of_found foundOld)
        (lifecycleOf_of_found foundNew) (flip_lifecycleOf foundOld foundNew rfl)
    | _ => exact absurd rfl settled

/-- No call takes a generation's row away. -/
theorem Call.lifecycle_stays (done : call.apply db = .ok db') (there : db.lifecycleOf g ≠ none) :
    db'.lifecycleOf g ≠ none := by
  cases Call.lifecycleEffect done with
  | kept _ same => rwa [same]
  | created _ _ _ _ _ _ _ now | set _ _ _ _ now =>
    rw [now]
    split
    · exact Option.some_ne_none _
    · exact there
  | flipped _ _ _ _ _ _ _ _ now =>
    rw [now]
    split
    · exact Option.some_ne_none _
    · split
      · exact Option.some_ne_none _
      · exact there

/-! ### What a call does to the active generations -/

/-- The call makes no generation active and moves none on. -/
def Call.calm : Call → Bool
  | .createGeneration _ _ state _ _ => state ≠ .active
  | call => call.settled

theorem Call.calm_active (calm : call.calm = true) (done : call.apply db = .ok db') (g : String) :
    db'.Active g ↔ db.Active g := by
  cases Call.lifecycleEffect done with
  | kept _ same => rw [Db.Active, same, Db.Active]
  | created g' _ state _ _ here fresh now =>
    rw [Db.Active, now]
    subst here
    split
    · rename_i same
      rw [same, Db.Active, fresh, Option.some.injEq]
      exact ⟨fun active => absurd active (of_decide_eq_true calm), fun none => by cases none⟩
    · rfl
  | set _ _ here | flipped _ _ _ _ _ here => cases here ▸ calm

/-- A generation that is made active was not there. -/
theorem active_created {build snapshot : Option String} {created : Reading}
    (done : (Call.createGeneration g build .active snapshot created).apply db = .ok db') :
    db.lifecycleOf g = none ∧ ∀ g', db'.Active g' ↔ g' = g ∨ db.Active g' := by
  cases Call.lifecycleEffect done with
  | kept settled => cases settled
  | set _ _ here | flipped _ _ _ _ _ here => cases here
  | created _ _ _ _ _ here fresh now =>
    cases here
    refine ⟨fresh, fun g' => ?_⟩
    rw [Db.Active, now]
    split <;> simp_all [Db.Active]

/-- A flip makes the new generation active and moves the old one on. -/
theorem active_flipped {old new : String} {moved fromOld fromNew : Lifecycle}
    (done : (Call.setGenerationLifecycleStateAtomic old new moved fromOld fromNew).apply db =
      .ok db') :
    db.lifecycleOf old = some fromOld ∧ db.lifecycleOf new = some fromNew ∧
      ∀ g', db'.Active g' ↔
        g' = new ∨ if g' = old then moved = .active else db.Active g' := by
  cases Call.lifecycleEffect done with
  | kept settled => cases settled
  | set _ _ here | created _ _ _ _ _ here => cases here
  | flipped _ _ _ _ _ here wasOld wasNew now =>
    cases here
    refine ⟨wasOld, wasNew, fun g' => ?_⟩
    rw [Db.Active, now]
    by_cases isNew : g' = new
    · simp [isNew]
    · by_cases isOld : g' = old
      · subst isOld
        simp [isNew]
      · simp [isNew, isOld, Db.Active]

/-! ### What a listing shows -/

theorem mem_listGenerations {gens : List GenerationRow} (listed : db.listGenerations = .ok gens)
    (row : GenerationRow) : row ∈ gens ↔ row ∈ db.generations.rows := by
  simp only [Db.listGenerations, bind_ok, require_ok, pure, Except.pure, Except.ok.injEq,
    exists_const] at listed
  rw [← listed.2, List.mem_insertionSort]

/-- A listed row is the row under its id. -/
theorem found_of_listed {gens : List GenerationRow} (listed : db.listGenerations = .ok gens)
    {row : GenerationRow} (member : row ∈ gens) : db.findGeneration row.generationId = some row :=
  Table.find?_of_mem ((mem_listGenerations listed row).mp member)

/-- The active generations are all listed. -/
theorem active_iff_listed {gens : List GenerationRow} (listed : db.listGenerations = .ok gens) :
    db.Active g ↔ ∃ row ∈ gens, row.generationId = g ∧ row.lifecycleState = .active := by
  constructor
  · intro active
    obtain ⟨row, found, state⟩ := Option.map_eq_some_iff.mp active
    exact ⟨row, (mem_listGenerations listed row).mpr (Table.mem_of_find? found),
      Db.generationId_of_findGeneration found, state⟩
  · rintro ⟨row, member, rfl, state⟩
    rw [Db.Active, lifecycleOf_of_found (found_of_listed listed member), state]

end Nelix.Store
