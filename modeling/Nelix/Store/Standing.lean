import Nelix.Store.Active

/-!
# Where an epoch stands

An epoch's generation and process state, and what the three writes of a re-adoption do to them and
to the pointers: the repair of a pointer, a promotion and a reconciliation.

## Main results

`oneServing_after`: whatever is called, a generation has at most one serving epoch.
-/
namespace Nelix.Store

open Contracts Core

variable {db d : Db} {call : Call} {g e : String} {state : ProcessState}

/-- The generation and the process state of an epoch. -/
def Db.standing (db : Db) (generationEpoch : String) : Option (String × ProcessState) :=
  (db.findEpoch generationEpoch).map fun row => (row.generationId, row.processState)

theorem standing_of_found {row : EpochRow} (found : db.findEpoch e = some row) :
    db.standing e = some (row.generationId, row.processState) := by
  rw [Db.standing, found, Option.map_some]

theorem standing_eq_some : db.standing e = some (g, state) ↔
    ∃ row, db.findEpoch e = some row ∧ row.generationId = g ∧ row.processState = state := by
  simp [Db.standing, Option.map_eq_some_iff]

theorem serves_iff_standing : db.Serves g e ↔ db.standing e = some (g, .serving) :=
  standing_eq_some.symm

theorem standing_update {row : EpochRow} (found : db.findEpoch row.generationEpoch = some row)
    (row' : EpochRow) (key : row'.generationEpoch = row.generationEpoch)
    (written : d.epochs = db.epochs.update row') (e' : String) :
    d.standing e' = if e' = row.generationEpoch then some (row'.generationId, row'.processState)
      else db.standing e' := by
  simp only [Db.standing, Db.findEpoch, written]
  split
  · rename_i same
    subst same
    have held : db.epochs.find? row'.generationEpoch = some row := key ▸ found
    have now : (db.epochs.update row').find? row.generationEpoch = some row' :=
      key ▸ Table.find?_update_self held
    rw [now, Option.map_some]
  · rename_i other
    have apart : Keyed.key row' ≠ e' := fun eq => other (eq.symm.trans key)
    rw [Table.find?_update_ne apart]

/-! ### A reconciliation -/

theorem reconcileEpochDead_ok_iff : (∃ d, db.reconcileEpochDead g e = .ok d) ↔
    g ≠ "" ∧ e ≠ "" ∧ ∃ state, db.standing e = some (g, state) := by
  simp only [Db.reconcileEpochDead, requireText, bind_ok, require_ok, Db.requireOwned_ok, pure,
    Except.pure, Except.ok.injEq, exists_const, standing_eq_some]
  constructor
  · rintro ⟨d, named, named', row, ⟨found, owned⟩, -⟩
    exact ⟨named, named', row.processState, row, found, owned, rfl⟩
  · rintro ⟨named, named', state, row, found, owned, -⟩
    exact ⟨_, named, named', row, ⟨found, owned⟩, rfl⟩

theorem reconcileEpochDead_standing (done : db.reconcileEpochDead g e = .ok d) :
    (∀ e', d.standing e' = if e' = e then some (g, .dead) else db.standing e') ∧
      ∀ g', d.pointer g' = if g' = g ∧ db.pointer g = some e then none else db.pointer g' := by
  simp only [Db.reconcileEpochDead, bind_ok, Db.requireOwned_ok, pure, Except.pure,
    Except.ok.injEq] at done
  obtain ⟨_, -, _, -, row, ⟨held, owned⟩, rfl⟩ := done
  have named := Db.generationEpoch_of_findEpoch held
  subst named owned
  let buried : EpochRow := { row with processState := .dead }
  refine ⟨standing_update held buried rfl (Db.clearPointer_epochs ..), fun g' => ?_⟩
  exact clearPointer_pointer (db.setEpochRow buried) ..

/-! ### The repair of a pointer -/

theorem setCurrentEpoch_ok_iff : (∃ d, db.setCurrentEpoch g e = .ok d) ↔
    g ≠ "" ∧ e ≠ "" ∧ db.findGeneration g ≠ none ∧ ∃ state, db.standing e = some (g, state) := by
  simp only [Db.setCurrentEpoch, requireText, bind_ok, require_ok, Db.requireGeneration_ok, pure,
    Except.pure, Except.ok.injEq, exists_const, Db.ownsEpoch, Option.any_eq_true,
    decide_eq_true_eq, standing_eq_some]
  constructor
  · rintro ⟨d, named, named', gen, found, ⟨row, held, owned⟩, -⟩
    exact ⟨named, named', fun absent => by simp [absent] at found, _, row, held, owned, rfl⟩
  · rintro ⟨named, named', there, state, row, held, owned, -⟩
    obtain ⟨gen, found⟩ := Option.ne_none_iff_exists'.mp there
    exact ⟨_, named, named', gen, found, ⟨row, held, owned⟩, rfl⟩

theorem setCurrentEpoch_standing (done : db.setCurrentEpoch g e = .ok d) :
    (∀ e', d.standing e' = db.standing e') ∧
      ∀ g', d.pointer g' = if g' = g then some e else db.pointer g' := by
  simp only [Db.setCurrentEpoch, bind_ok, Db.requireGeneration_ok, pure, Except.pure,
    Except.ok.injEq] at done
  obtain ⟨_, -, _, -, gen, found, _, -, rfl⟩ := done
  have named := Db.generationId_of_findGeneration found
  subst named
  exact ⟨fun _ => rfl, pointer_update found { gen with currentEpoch := some e } rfl rfl⟩

/-! ### A promotion -/

theorem casEpochServing_ok_iff {expected : Option String} {told : String} (said : told ≠ "") :
    (∃ d, db.casEpochServing g e expected (some told) = .ok d) ↔
      g ≠ "" ∧ e ≠ "" ∧ db.findGeneration g ≠ none ∧ db.pointer g = expected ∧
        db.standing e = some (g, .starting) ∧ ∀ e', db.standing e' ≠ some (g, .serving) := by
  simp only [Db.casEpochServing, requireText, requireTextOrNone, bind_ok, require_ok,
    Db.requireGeneration_ok, Db.requireOwned_ok, pure, Except.pure, Except.ok.injEq, exists_const,
    servingElsewhere_eq_false]
  constructor
  · rintro ⟨d, named, named', -, gen, found, points, row, ⟨held, owned⟩, starting, alone, -⟩
    refine ⟨named, named', fun absent => by simp [absent] at found,
      (pointer_of_findGeneration found).trans points,
      standing_eq_some.mpr ⟨row, held, owned, starting⟩, fun e' serves => ?_⟩
    obtain rfl := (alone e' (owned ▸ serves_iff_standing.mpr serves)).trans
      (Db.generationEpoch_of_findEpoch held)
    rw [standing_of_found held, starting] at serves
    cases serves
  · rintro ⟨named, named', there, points, starting, alone⟩
    obtain ⟨gen, found⟩ := Option.ne_none_iff_exists'.mp there
    obtain ⟨row, held, owned, starting⟩ := standing_eq_some.mp starting
    refine ⟨_, named, named', fun empty => said (Option.some.inj empty), gen, found,
      (pointer_of_findGeneration found).symm.trans points, row, ⟨held, owned⟩, starting,
      fun e' serves => absurd (serves_iff_standing.mp serves) (owned ▸ alone e'), rfl⟩

theorem casEpochServing_standing {expected told : Option String}
    (done : db.casEpochServing g e expected told = .ok d) :
    (∀ e', d.standing e' = if e' = e then some (g, .serving) else db.standing e') ∧
      ∀ g', d.pointer g' = if g' = g then some e else db.pointer g' := by
  simp only [Db.casEpochServing, bind_ok, Db.requireGeneration_ok, Db.requireOwned_ok, pure,
    Except.pure, Except.ok.injEq] at done
  obtain ⟨_, -, _, -, _, -, gen, found, _, -, row, ⟨held, owned⟩, _, -, _, -, rfl⟩ := done
  have named := Db.generationId_of_findGeneration found
  have named' := Db.generationEpoch_of_findEpoch held
  subst named named'
  refine ⟨fun e' => ?_, pointer_update found { gen with currentEpoch := some row.generationEpoch } rfl rfl⟩
  rw [standing_update held { row with
    processState := .serving
    incarnationMeta := told.orElse fun _ => row.incarnationMeta } rfl rfl]
  simp [owned]

/-- A promotion that the store refuses is refused with a contract error. -/
theorem casEpochServing_refused {expected told : Option String} {x : Raised}
    (fails : db.casEpochServing g e expected told = .error x) : ∃ n, x = .nelix n := by
  simp only [Db.casEpochServing, requireText, requireTextOrNone, Db.requireGeneration,
    Db.requireOwned, bind_error, require_error, demand_error, pure, Except.pure, reduceCtorEq,
    and_false, or_false, exists_false] at fails
  obtain ⟨-, rfl⟩ | ⟨_, -, ⟨-, rfl⟩ | ⟨_, -, ⟨-, rfl⟩ | ⟨_, -, ⟨-, rfl⟩ | ⟨_, -, ⟨-, rfl⟩ |
    ⟨_, -, ⟨-, rfl⟩ | ⟨_, -, ⟨-, rfl⟩ | ⟨_, -, -, rfl⟩⟩⟩⟩⟩⟩⟩ := fails <;> exact ⟨_, rfl⟩

/-! ### The incarnation of an epoch -/

/-- The epoch's row names the daemon that was promoted. -/
def Db.Recorded (db : Db) (generationEpoch : String) : Prop :=
  ∃ row, db.findEpoch generationEpoch = some row ∧ row.incarnationMeta ≠ none

theorem casEpochServing_recorded {expected : Option String} {told : String}
    (done : db.casEpochServing g e expected (some told) = .ok d) : d.Recorded e := by
  simp only [Db.casEpochServing, bind_ok, Db.requireGeneration_ok, Db.requireOwned_ok, pure,
    Except.pure, Except.ok.injEq] at done
  obtain ⟨_, -, _, -, _, -, gen, found, _, -, row, ⟨held, owned⟩, _, -, _, -, rfl⟩ := done
  have named := Db.generationEpoch_of_findEpoch held
  subst named
  let served : EpochRow := { row with
    processState := .serving
    incarnationMeta := (some told).orElse fun _ => row.incarnationMeta }
  have now : (db.epochs.update served).find? row.generationEpoch = some served :=
    Table.find?_update_self held
  exact ⟨served, now, by rintro ⟨⟩⟩

theorem reconcileEpochDead_recorded (done : db.reconcileEpochDead g e = .ok d) :
    d.Recorded e ↔ db.Recorded e := by
  simp only [Db.reconcileEpochDead, bind_ok, Db.requireOwned_ok, pure, Except.pure,
    Except.ok.injEq] at done
  obtain ⟨_, -, _, -, row, ⟨held, owned⟩, rfl⟩ := done
  have named := Db.generationEpoch_of_findEpoch held
  subst named
  let buried : EpochRow := { row with processState := .dead }
  have now : ((db.setEpochRow buried).clearPointer g row.generationEpoch).findEpoch
      row.generationEpoch = some buried := by
    rw [Db.findEpoch, Db.clearPointer_epochs]
    exact Table.find?_update_self held
  constructor
  · rintro ⟨row', found, told⟩
    rw [now, Option.some.injEq] at found
    subst found
    exact ⟨row, held, told⟩
  · rintro ⟨row', found, told⟩
    rw [held, Option.some.injEq] at found
    subst found
    exact ⟨buried, now, told⟩

theorem not_recorded (absent : db.standing e = none) : ¬ db.Recorded e := by
  rintro ⟨row, found, -⟩
  rw [standing_of_found found] at absent
  cases absent

/-! ### One serving epoch -/

/-- A generation has at most one serving epoch. -/
def Db.OneServing (db : Db) : Prop := ∀ g e e', db.Serves g e → db.Serves g e' → e = e'

theorem Db.OneServing.promoted (one : db.OneServing) {row : EpochRow}
    (held : db.findEpoch row.generationEpoch = some row)
    (alone : ∀ e', db.Serves row.generationId e' → e' = row.generationEpoch) (row' : EpochRow)
    (epoch : row'.generationEpoch = row.generationEpoch)
    (owned : row'.generationId = row.generationId) (written : d.epochs = db.epochs.update row') :
    d.OneServing := by
  intro g' e1 e2 serves serves'
  rw [serves_update held row' epoch written] at serves serves'
  split at serves <;> split at serves'
  · exact ‹e1 = _›.trans ‹e2 = _›.symm
  · exact ‹e1 = _›.trans (alone e2 (owned ▸ serves.1 ▸ serves')).symm
  · exact (alone e1 (owned ▸ serves'.1 ▸ serves)).trans ‹e2 = _›.symm
  · exact one g' e1 e2 serves serves'

theorem Db.OneServing.step (one : db.OneServing) (call : Call) :
    (machine.step db call).1.OneServing := by
  simp only [machine, settled]
  cases done : call.apply db with
  | error raised => exact one
  | ok d =>
    cases call with
    | setEpochProcessState e state =>
      simp only [Call.apply, Db.setEpochProcessState, bind_ok, require_ok, pure, Except.pure,
        Except.ok.injEq, exists_const] at done
      obtain ⟨_, -, row, found, free, rfl⟩ := done
      have held : db.findEpoch e = some row := (demand_ok ..).mp found
      have named := Db.generationEpoch_of_findEpoch held
      subst named
      let row' : EpochRow := { row with processState := state }
      by_cases serving : state = .serving
      · have elsewhere : db.servingElsewhere row = false :=
          Bool.eq_false_iff.mpr fun busy => free ⟨serving, busy⟩
        exact one.promoted held (servingElsewhere_eq_false.mp elsewhere) row' rfl rfl rfl
      · have fewer : ∀ g' e', (db.setEpochRow row').Serves g' e' → db.Serves g' e' := by
          intro g' e' serves
          rw [serves_update held row' rfl rfl] at serves
          split at serves
          · exact absurd serves.2 serving
          · exact serves
        exact fun g' e1 e2 first second => one g' e1 e2 (fewer g' e1 first) (fewer g' e2 second)
    | clearCurrentEpoch g =>
      simp only [Call.apply, Db.clearCurrentEpoch, bind_ok, pure, Except.pure, Except.ok.injEq] at done
      obtain ⟨_, -, _, -, rfl⟩ := done
      exact one
    | setCurrentEpoch g e =>
      have same := (setCurrentEpoch_standing done).1
      intro g' e1 e2
      simpa only [serves_iff_standing, same] using one g' e1 e2
    | casEpochServing | reconcileEpochDead =>
      cases Call.servingEffect rfl done with
      | kept _ _ serves => exact fun g' e1 e2 => by simpa only [serves] using one g' e1 e2
      | promoted g e _ _ _ _ _ alone _ serves =>
        intro g' e1 e2 first second
        rw [serves] at first second
        split at first <;> split at second
        · exact ‹e1 = e›.trans ‹e2 = e›.symm
        · exact absurd (first ▸ second) (alone e2)
        · exact absurd (second ▸ first) (alone e1)
        · exact one g' e1 e2 first second
      | buried g e _ _ _ serves =>
        intro g' e1 e2
        rw [serves, serves]
        exact fun first second => one g' e1 e2 first.2 second.2
    | _ =>
      cases Call.servingEffect rfl done with
      | kept _ _ serves => exact fun g' e1 e2 => by simpa only [serves] using one g' e1 e2
      | promoted _ _ _ _ here | buried _ _ here => cases here

theorem oneServing_after (calls : List Call) : (machine.after {} calls).OneServing :=
  machine.invariant_after Db.OneServing (fun _ call one => one.step call)
    (fun _ _ _ serves => by obtain ⟨_, found, -⟩ := serves; cases found) calls

end Nelix.Store
