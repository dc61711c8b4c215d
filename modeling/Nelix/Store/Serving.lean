import Nelix.Store.EpochRuns

/-!
# The serving epoch of a generation

Which epoch serves is written twice: in the epoch's process state and in the generation's pointer.
`Aligned` says that the two agree; it is kept by every call that does not write one of them alone.

## Main results

`serving_aligned`: at most one epoch of a generation serves, the pointer names exactly it, and
neither a late promotion nor a late reconciliation undoes this.
-/
namespace Nelix.Store

open Contracts Core

variable {db db' : Db} {call : Call} {g e : String}

/-- The epoch the generation's row points at. -/
def Db.pointer (db : Db) (generationId : String) : Option String :=
  (db.findGeneration generationId).bind GenerationRow.currentEpoch

/-- The epoch of this name serves the generation. -/
def Db.Serves (db : Db) (generationId generationEpoch : String) : Prop :=
  ∃ row, db.findEpoch generationEpoch = some row ∧ row.generationId = generationId ∧
    row.processState = .serving

def Db.Dead (db : Db) (generationEpoch : String) : Prop :=
  ∃ row, db.findEpoch generationEpoch = some row ∧ row.processState = .dead

/-- The call writes a process state or a pointer without the other. -/
def Call.repairs : Call → Bool
  | .setEpochProcessState .. | .clearCurrentEpoch .. | .setCurrentEpoch .. => true
  | _ => false

/-- The process states and the pointers agree. -/
def Aligned (db : Db) : Prop := ∀ g e, db.pointer g = some e ↔ db.Serves g e

theorem Aligned.one (aligned : Aligned db) {e e' : String} (serves : db.Serves g e)
    (serves' : db.Serves g e') : e = e' := by
  have points := (aligned g e).mpr serves
  rw [(aligned g e').mpr serves'] at points
  exact (Option.some.inj points).symm

theorem servingElsewhere_eq_false {row : EpochRow} :
    db.servingElsewhere row = false ↔
      ∀ e, db.Serves row.generationId e → e = row.generationEpoch := by
  simp only [Db.servingElsewhere, List.any_eq_false, Bool.and_eq_true, decide_eq_true_eq, not_and,
    not_not, ne_eq]
  constructor
  · rintro alone e ⟨other, found, owned, serving⟩
    have named := Db.generationEpoch_of_findEpoch found
    exact named ▸ alone other (Table.mem_of_find? found) ⟨owned, serving⟩
  · rintro alone other member ⟨owned, serving⟩
    exact alone _ ⟨other, Table.find?_of_mem member, owned, serving⟩

/-! ### Pointers and process states under a write of a row -/

theorem pointer_update {row : GenerationRow}
    (found : db.findGeneration row.generationId = some row) (row' : GenerationRow)
    (key : row'.generationId = row.generationId)
    (written : db'.generations = db.generations.update row') (g' : String) :
    db'.pointer g' = if g' = row.generationId then row'.currentEpoch else db.pointer g' := by
  simp only [Db.pointer, Db.findGeneration, written]
  split
  · rename_i same
    subst same
    have held : db.generations.find? row'.generationId = some row := key ▸ found
    rw [← key]
    exact congrArg (Option.bind · GenerationRow.currentEpoch) (Table.find?_update_self held)
  · rename_i other
    have apart : Keyed.key row' ≠ g' := fun eq => other (eq.symm.trans key)
    rw [Table.find?_update_ne apart]

/-- A write that leaves a row's pointer leaves every pointer. -/
theorem pointer_update_same {generations : Table GenerationRow} (row : GenerationRow)
    (same : (generations.find? row.generationId).bind GenerationRow.currentEpoch =
      row.currentEpoch) (g : String) :
    ((generations.update row).find? g).bind GenerationRow.currentEpoch =
      (generations.find? g).bind GenerationRow.currentEpoch := by
  rw [Table.find?_update]
  split
  · rename_i hit
    subst hit
    change _ = (generations.find? row.generationId).bind _
    rw [same]
    change ((generations.find? row.generationId).map _).bind _ = _
    cases held : generations.find? row.generationId with
    | none =>
      rw [held] at same
      exact same
    | some old => rfl
  · rfl

theorem serves_update {row : EpochRow} (found : db.findEpoch row.generationEpoch = some row)
    (row' : EpochRow) (key : row'.generationEpoch = row.generationEpoch)
    (written : db'.epochs = db.epochs.update row') (g' e' : String) :
    db'.Serves g' e' ↔
      if e' = row.generationEpoch then row'.generationId = g' ∧ row'.processState = .serving
      else db.Serves g' e' := by
  simp only [Db.Serves, Db.findEpoch, written]
  split
  · rename_i same
    subst same
    have held : db.epochs.find? row'.generationEpoch = some row := key ▸ found
    have now : (db.epochs.update row').find? row.generationEpoch = some row' :=
      key ▸ Table.find?_update_self held
    simp [now]
  · rename_i other
    have apart : Keyed.key row' ≠ e' := fun eq => other (eq.symm.trans key)
    rw [Table.find?_update_ne apart]

theorem pointer_of_findGeneration {row : GenerationRow} (found : db.findGeneration g = some row) :
    db.pointer g = row.currentEpoch := by
  rw [Db.pointer, found, Option.bind_some]

theorem serves_of_findEpoch {row : EpochRow} (found : db.findEpoch e = some row) :
    db.Serves g e ↔ row.generationId = g ∧ row.processState = .serving := by
  simp [Db.Serves, found]

/-! ### What a call does to the serving epochs -/

/-- What a call that repairs nothing does to the pointers and the serving epochs. -/
inductive ServingEffect (call : Call) (db db' : Db) : Prop
  | kept (cas : ∀ g e expected incarnationMeta, call ≠ .casEpochServing g e expected incarnationMeta)
      (pointer : ∀ g, db'.pointer g = db.pointer g)
      (serves : ∀ g e, db'.Serves g e ↔ db.Serves g e)
  | promoted (g e : String) (expected incarnationMeta : Option String)
      (here : call = .casEpochServing g e expected incarnationMeta)
      (expects : db.pointer g = expected)
      (idle : ∀ g', ¬ db.Serves g' e) (alone : ∀ e', ¬ db.Serves g e')
      (pointer : ∀ g', db'.pointer g' = if g' = g then some e else db.pointer g')
      (serves : ∀ g' e', db'.Serves g' e' ↔ if e' = e then g' = g else db.Serves g' e')
  | buried (g e : String) (here : call = .reconcileEpochDead g e)
      (owned : ∀ g', db.Serves g' e → g' = g)
      (pointer : ∀ g', db'.pointer g' =
        if g' = g ∧ db.pointer g = some e then none else db.pointer g')
      (serves : ∀ g' e', db'.Serves g' e' ↔ e' ≠ e ∧ db.Serves g' e')

theorem Aligned.keeps (aligned : Aligned db) (effect : ServingEffect call db db') :
    Aligned db' := by
  intro g' e'
  cases effect with
  | kept cas pointer serves => rw [pointer, serves, aligned]
  | promoted g e expected incarnation here expects idle alone pointer serves =>
    rw [pointer, serves]
    by_cases mine : g' = g
    · subst mine
      rw [if_pos rfl, Option.some_inj]
      by_cases same : e' = e
      · simp [same]
      · simp [same, alone e', eq_comm]
    · rw [if_neg mine, aligned]
      by_cases same : e' = e
      · subst same
        simp [mine, idle g']
      · rw [if_neg same]
  | buried g e here owned pointer serves =>
    rw [pointer, serves]
    by_cases cleared : g' = g ∧ db.pointer g = some e
    · obtain ⟨rfl, points⟩ := cleared
      simp only [points, and_self, if_true, reduceCtorEq, false_iff, not_and]
      exact fun other serving => other (aligned.one serving ((aligned g' e).mp points))
    · rw [if_neg cleared, aligned]
      refine ⟨fun serving => ⟨?_, serving⟩, And.right⟩
      rintro rfl
      obtain rfl := owned g' serving
      exact cleared ⟨rfl, (aligned g' e').mpr serving⟩

theorem casEpochServing_serving {expected incarnation : Option String}
    (done : db.casEpochServing g e expected incarnation = .ok db') :
    ServingEffect (.casEpochServing g e expected incarnation) db db' := by
  simp only [Db.casEpochServing, bind_ok, require_ok, Db.requireGeneration_ok,
    Db.requireOwned_ok, pure, Except.pure, Except.ok.injEq, exists_const] at done
  obtain ⟨_, -, _, -, _, -, gen, found, expects, row, ⟨held, owned⟩, starting, elsewhere, rfl⟩ :=
    done
  have namedGen := Db.generationId_of_findGeneration found
  have namedRow := Db.generationEpoch_of_findEpoch held
  subst namedGen namedRow
  have idle : ∀ g', ¬ db.Serves g' row.generationEpoch := by
    intro g' serves
    have serving := ((serves_of_findEpoch held).mp serves).2
    rw [starting] at serving
    cases serving
  -- The partial unique index: a serving epoch of this generation would be the promoted one.
  have alone : ∀ e', ¬ db.Serves gen.generationId e' := by
    intro e' serves
    obtain rfl := servingElsewhere_eq_false.mp elsewhere e' (owned ▸ serves)
    exact idle _ serves
  refine .promoted _ _ expected incarnation rfl ((pointer_of_findGeneration found).trans expects)
    idle alone (fun g' => ?_) fun g' e' => ?_
  · exact pointer_update found { gen with currentEpoch := some row.generationEpoch } rfl rfl g'
  · rw [serves_update held { row with
      processState := .serving
      incarnationMeta := incarnation.orElse fun _ => row.incarnationMeta } rfl rfl]
    simp [owned, eq_comm]

theorem clearPointer_pointer (db : Db) (g e g' : String) :
    (db.clearPointer g e).pointer g' =
      if g' = g ∧ db.pointer g = some e then none else db.pointer g' := by
  unfold Db.clearPointer
  cases found : db.findGeneration g with
  | none =>
    have bare : db.pointer g = none := by rw [Db.pointer, found, Option.bind_none]
    simp [bare]
  | some row =>
    have named := Db.generationId_of_findGeneration found
    subst named
    rw [pointer_of_findGeneration found]
    dsimp only
    by_cases points : row.currentEpoch = some e
    · rw [if_pos points, pointer_update found { row with currentEpoch := none } rfl rfl]
      simp [points]
    · rw [if_neg points, if_neg fun both => points both.2]

theorem reconcileEpochDead_serving (done : db.reconcileEpochDead g e = .ok db') :
    ServingEffect (.reconcileEpochDead g e) db db' ∧ db'.Dead e := by
  simp only [Db.reconcileEpochDead, bind_ok, Db.requireOwned_ok, pure, Except.pure,
    Except.ok.injEq] at done
  obtain ⟨_, -, _, -, row, ⟨held, owned⟩, rfl⟩ := done
  have named := Db.generationEpoch_of_findEpoch held
  subst named owned
  let buried : EpochRow := { row with processState := .dead }
  have epochs : ((db.setEpochRow buried).clearPointer row.generationId row.generationEpoch).epochs =
      db.epochs.update buried := Db.clearPointer_epochs ..
  refine ⟨.buried _ _ rfl (fun g' serves => ?_) (fun g' => ?_) fun g' e' => ?_, buried, ?_, rfl⟩
  · exact ((serves_of_findEpoch held).mp serves).1.symm
  · exact clearPointer_pointer (db.setEpochRow buried) ..
  · rw [serves_update held buried rfl epochs]
    by_cases same : e' = row.generationEpoch <;> simp [same, buried]
  · rw [Db.findEpoch, epochs]
    exact Table.find?_update_self held

/-- Only a promotion, a reconciliation and the repairs move a pointer. -/
theorem GenerationsEffect.pointer (effect : GenerationsEffect call db db')
    (quiet : call.repairs = false) (cas : ∀ g e x i, call ≠ .casEpochServing g e x i)
    (reconcile : ∀ g e, call ≠ .reconcileEpochDead g e) (g : String) :
    db'.pointer g = db.pointer g := by
  cases effect with
  | kept generations => rw [Db.pointer, Db.findGeneration, generations]; rfl
  | created row created here unserved generations =>
    have fresh := Table.fresh_of_insert generations
    rw [Db.pointer, Db.findGeneration, Table.find?_insert generations]
    split
    · rename_i same
      subst same
      rw [Option.bind_some, unserved, Db.pointer]
      exact (congrArg (Option.bind · GenerationRow.currentEpoch) fresh).symm
    · rfl
  | moved row row' found move generations =>
    rw [pointer_update found row' move.key generations]
    split
    · rename_i same
      subst same
      rw [pointer_of_findGeneration found]
      cases move with
      | lifecycle => rfl
      | served e incarnation here => exact (cas _ _ _ _ here).elim
      | reconciled e here => exact (reconcile _ _ here).elim
      | cleared here => rw [here] at quiet; cases quiet
      | pointed e here => rw [here] at quiet; cases quiet
    · rfl
  | flipped old new newStateOld here foundOld foundNew generations =>
    have kept : db.pointer old.generationId = old.currentEpoch := pointer_of_findGeneration foundOld
    have kept' : db.pointer new.generationId = new.currentEpoch := pointer_of_findGeneration foundNew
    have first := pointer_update_same { old with lifecycleState := newStateOld } kept
    have then' := pointer_update_same { new with lifecycleState := .active } ((first _).trans kept')
    rw [Db.pointer, Db.findGeneration, generations]
    exact (then' g).trans (first g)

/-- Only a promotion, a reconciliation and a repair change who serves. -/
theorem EpochsEffect.serves (effect : EpochsEffect call db db')
    (quiet : call.repairs = false) (cas : ∀ g e x i, call ≠ .casEpochServing g e x i)
    (reconcile : ∀ g e, call ≠ .reconcileEpochDead g e) (g e : String) :
    db'.Serves g e ↔ db.Serves g e := by
  cases effect with
  | kept epochs => rw [Db.Serves, Db.findEpoch, epochs]; rfl
  | inserted row created here named shaped starting opened blank unnumbered epochs =>
    have fresh := Table.fresh_of_insert epochs
    rw [Db.Serves, Db.findEpoch, Table.find?_insert epochs]
    split
    · rename_i same
      subst same
      constructor
      · rintro ⟨_, new, -, serving⟩
        cases new
        rw [starting] at serving
        cases serving
      · rintro ⟨_, found, -⟩
        rw [Db.findEpoch, fresh] at found
        cases found
    · rfl
  | moved row row' found move epochs =>
    rw [serves_update found row' move.key.1 epochs]
    split
    · rename_i same
      subst same
      rw [serves_of_findEpoch found, move.key.2]
      cases move with
      | retirement state certificate final cell high here bound checked => cases state <;> rfl
      | promoted expected incarnation here => exact (cas _ _ _ _ here).elim
      | reconciled here => exact (reconcile _ _ here).elim
      | process state here => rw [here] at quiet; cases quiet
    · rfl

theorem Call.servingEffect (quiet : call.repairs = false) (done : call.apply db = .ok db') :
    ServingEffect call db db' := by
  have generations := Call.generationsEffect done
  have epochs := Call.epochsEffect done
  cases call with
  | casEpochServing => exact casEpochServing_serving done
  | reconcileEpochDead => exact (reconcileEpochDead_serving done).1
  | _ =>
    refine .kept (fun _ _ _ _ here => ?_) (generations.pointer quiet (fun _ _ _ _ here => ?_)
      fun _ _ here => ?_) (epochs.serves quiet (fun _ _ _ _ here => ?_) fun _ _ here => ?_)
    all_goals cases here

/-! ### Runs -/

theorem Aligned.step (aligned : Aligned db) (quiet : call.repairs = false) :
    Aligned (machine.step db call).1 := by
  simp only [machine, settled]
  cases done : call.apply db with
  | error raised => exact aligned
  | ok db' => exact aligned.keeps (Call.servingEffect quiet done)

/-- The stores that runs without repairs reach. -/
def Unrepaired (db : Db) : Prop :=
  ∃ calls : List Call, (∀ call ∈ calls, call.repairs = false) ∧ machine.after {} calls = db

theorem Unrepaired.aligned (reached : Unrepaired db) : Aligned db := by
  obtain ⟨calls, quiet, rfl⟩ := reached
  refine machine.invariant_along Aligned (fun _ _ aligned quiet => aligned.step quiet) ?_
    (machine.along_of_forall quiet)
  intro g e
  simp only [Db.Serves]
  exact ⟨fun points => (by cases points), fun ⟨_, found, _⟩ => (by cases found)⟩

/-- Only the setter of the process state takes an epoch out of dead. -/
theorem Db.Dead.step (dead : db.Dead e) (quiet : call.repairs = false) :
    (machine.step db call).1.Dead e := by
  simp only [machine, settled]
  cases done : call.apply db with
  | error raised => exact dead
  | ok db' =>
    obtain ⟨row, found, dies⟩ := dead
    have named := Db.generationEpoch_of_findEpoch found
    subst named
    rcases Call.epoch_stays done (Table.mem_of_find? found) with same | ⟨row', member, move⟩
    · exact ⟨row, Table.find?_of_mem same, dies⟩
    · refine ⟨row', move.key.1 ▸ Table.find?_of_mem member, ?_⟩
      cases move with
      | promoted expected incarnation here starting => rw [dies] at starting; cases starting
      | process state here => rw [here] at quiet; cases quiet
      | retirement state certificate final cell high here bound checked =>
        cases state <;> exact dies
      | reconciled here => rfl

theorem Db.Dead.after (dead : db.Dead e) {calls : List Call}
    (quiet : ∀ call ∈ calls, call.repairs = false) : (machine.after db calls).Dead e :=
  machine.invariant_along (Db.Dead · e) (fun _ _ dead quiet => dead.step quiet) dead
    (machine.along_of_forall quiet)

/-- In every run without a repair the pointer of a generation names exactly its serving epoch, of
which there is at most one, and the dead stay dead. A promotion writes both columns or nothing; a
reconciliation clears no pointer but the one to its own epoch. -/
theorem serving_aligned (reached : Unrepaired db) :
    (∀ g e, db.pointer g = some e ↔ db.Serves g e) ∧
    (∀ g e e', db.Serves g e → db.Serves g e' → e = e') ∧
    (∀ e, db.Dead e → ∀ later : List Call, (∀ call ∈ later, call.repairs = false) →
      (machine.after db later).Dead e) ∧
    (∀ g e expected incarnation db',
      (machine.step db (.casEpochServing g e expected incarnation)).1 = db' →
        db' = db ∨ db'.pointer g = some e ∧ db'.Serves g e) ∧
    ∀ g e db', (machine.step db (.reconcileEpochDead g e)).1 = db' →
      ∀ g' e', e' ≠ e → db.pointer g' = some e' → db'.pointer g' = some e' := by
  have aligned := reached.aligned
  refine ⟨aligned, fun g e e' => aligned.one, fun e dead later quiet => dead.after quiet,
    fun g e expected incarnation db' step => ?_, fun g e db' step g' e' other points => ?_⟩
  · simp only [machine, settled] at step
    cases done : Call.apply db (.casEpochServing g e expected incarnation) with
    | error raised =>
      rw [done] at step
      exact .inl step.symm
    | ok served =>
      rw [done] at step
      subst step
      cases Call.servingEffect rfl done with
      | promoted g' e' x i here expects idle alone pointer serves =>
        cases here
        exact .inr ⟨by rw [pointer, if_pos rfl], (serves g e).mpr (by rw [if_pos rfl])⟩
      | buried g' e' here => cases here
      | kept cas => exact (cas _ _ _ _ rfl).elim
  · simp only [machine, settled] at step
    cases done : Call.apply db (.reconcileEpochDead g e) with
    | error raised =>
      rw [done] at step
      exact step ▸ points
    | ok buried =>
      rw [done] at step
      subst step
      cases Call.servingEffect rfl done with
      | kept cas pointer serves => rw [pointer, points]
      | promoted g' e' x i here => cases here
      | buried _ _ here owned pointer serves =>
        cases here
        rw [pointer, if_neg ?_, points]
        rintro ⟨rfl, named⟩
        rw [points] at named
        exact other (Option.some.inj named)

/-- An epoch replaced by a younger one and reconciled late. -/
def replacedEpoch : List Call :=
  [.createGeneration "g" (some "b") .active none (.finite 0), .insertEpoch "e1" "g" none (.finite 1),
   .casEpochServing "g" "e1" none none, .reconcileEpochDead "g" "e1",
   .insertEpoch "e2" "g" none (.finite 2), .casEpochServing "g" "e2" none none,
   .reconcileEpochDead "g" "e1"]

theorem serving_aligned_replaced :
    (machine.after {} replacedEpoch).pointer "g" = some "e2" ∧
      (machine.after {} replacedEpoch).Serves "g" "e2" := by
  have points : (machine.after {} replacedEpoch).pointer "g" = some "e2" := by decide +kernel
  exact ⟨points, ((serving_aligned ⟨replacedEpoch, by decide, rfl⟩).1 "g" "e2").mp points⟩

end Nelix.Store
