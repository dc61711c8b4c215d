import Nelix.Store.Calls

/-!
# Epochs and generations under every call

`EpochsEffect` says once what a call can do to the epochs, `GenerationsEffect` what it can do to
the generations. Both are read off by everything that follows an epoch through a run.
-/
namespace Nelix.Store

open Contracts Core

/-- How the row of an epoch can change. -/
inductive EpochMove (call : Call) (row : EpochRow) : EpochRow → Prop
  | promoted (expected incarnationMeta : Option String)
      (here : call = .casEpochServing row.generationId row.generationEpoch expected incarnationMeta)
      (starting : row.processState = .starting) (shaped : incarnationMeta ≠ some "") :
      EpochMove call row { row with
        processState := .serving
        incarnationMeta := incarnationMeta.orElse fun _ => row.incarnationMeta }
  | process (state : ProcessState) (here : call = .setEpochProcessState row.generationEpoch state) :
      EpochMove call row { row with processState := state }
  | retirement (state : RetirementState) (certificate : CertificateArg) (finalHighWater : Option ℤ)
      (cell : TextCell) (high : Option ℕ)
      (here : call = .setEpochRetirement row.generationEpoch state certificate finalHighWater)
      (bound : Db.boundCertificate state certificate = .ok cell)
      (checked : Db.checkHighWater finalHighWater = .ok high) :
      EpochMove call row (Db.retired row state cell high)
  | reconciled (here : call = .reconcileEpochDead row.generationId row.generationEpoch) :
      EpochMove call row { row with processState := .dead }

/-- What a call does to the epochs. -/
inductive EpochsEffect (call : Call) (db db' : Db) : Prop
  | kept (epochs : db'.epochs = db.epochs)
  | inserted (row : EpochRow) (created : Reading)
      (here : call = .insertEpoch row.generationEpoch row.generationId row.incarnationMeta created)
      (named : row.generationEpoch ≠ "") (shaped : row.incarnationMeta ≠ some "")
      (starting : row.processState = .starting) (opened : row.retirementState = .opened)
      (blank : row.certificate = .null) (unnumbered : row.finalHighWater = none)
      (epochs : db.epochs.insert row = some db'.epochs)
  | moved (row row' : EpochRow) (found : db.findEpoch row.generationEpoch = some row)
      (move : EpochMove call row row') (epochs : db'.epochs = db.epochs.update row')

variable {db db' : Db} {call : Call}

theorem EpochMove.key {row row' : EpochRow} (move : EpochMove call row row') :
    row'.generationEpoch = row.generationEpoch ∧ row'.generationId = row.generationId := by
  cases move with
  | retirement state certificate finalHighWater cell high here bound checked =>
    cases state <;> exact ⟨rfl, rfl⟩
  | _ => exact ⟨rfl, rfl⟩

namespace Db

theorem generationEpoch_of_findEpoch {e : String} {row : EpochRow}
    (found : db.findEpoch e = some row) : row.generationEpoch = e :=
  Table.key_of_find? found

theorem requireOwned_ok {g e : String} {row : EpochRow} :
    db.requireOwned g e = .ok row ↔ db.findEpoch e = some row ∧ row.generationId = g := by
  simp [requireOwned, Option.filter_eq_some_iff]

@[simp] theorem clearPointer_epochs (g e : String) : (db.clearPointer g e).epochs = db.epochs := by
  unfold clearPointer
  split
  · rfl
  · split <;> rfl

theorem insertEpoch_epochs {e g : String} {incarnation : Option String} {created : Reading}
    (done : db.insertEpoch e g incarnation created = .ok db') :
    EpochsEffect (.insertEpoch e g incarnation created) db db' := by
  simp only [insertEpoch, requireText, requireTextOrNone, bind_ok, require_ok, timestamp_ok,
    demand_ok, pure, Except.pure, Except.ok.injEq, exists_const] at done
  obtain ⟨named, -, shaped, t, rfl, epochs, inserted, -, rfl⟩ := done
  exact .inserted _ (.finite t) rfl named shaped rfl rfl rfl rfl inserted

theorem casEpochServing_epochs {g e : String} {expected incarnation : Option String}
    (done : db.casEpochServing g e expected incarnation = .ok db') :
    EpochsEffect (.casEpochServing g e expected incarnation) db db' := by
  simp only [casEpochServing, requireText, requireTextOrNone, bind_ok, require_ok,
    requireOwned_ok, pure, Except.pure, Except.ok.injEq, exists_const] at done
  obtain ⟨-, -, shaped, generation, -, -, epoch, ⟨found, owned⟩, starting, -, rfl⟩ := done
  have named := generationEpoch_of_findEpoch found
  subst named owned
  exact .moved epoch _ found (.promoted expected incarnation rfl starting shaped) rfl

theorem setEpochProcessState_epochs {e : String} {state : ProcessState}
    (done : db.setEpochProcessState e state = .ok db') :
    EpochsEffect (.setEpochProcessState e state) db db' := by
  simp only [setEpochProcessState, requireEpoch, bind_ok, demand_ok, pure, Except.pure,
    Except.ok.injEq] at done
  obtain ⟨-, -, epoch, found, -, -, rfl⟩ := done
  have named := generationEpoch_of_findEpoch found
  subst named
  exact .moved epoch _ found (.process state rfl) rfl

theorem setEpochRetirement_epochs {e : String} {state : RetirementState}
    {certificate : CertificateArg} {final : Option ℤ}
    (done : db.setEpochRetirement e state certificate final = .ok db') :
    EpochsEffect (.setEpochRetirement e state certificate final) db db' := by
  obtain ⟨-, high, cell, epoch, checked, bound, -, found, rfl⟩ := setEpochRetirement_ok.mp done
  have named := generationEpoch_of_findEpoch found
  subst named
  exact .moved epoch _ found (.retirement state certificate final cell high rfl bound checked) rfl

theorem reconcileEpochDead_epochs {g e : String} (done : db.reconcileEpochDead g e = .ok db') :
    EpochsEffect (.reconcileEpochDead g e) db db' := by
  simp only [reconcileEpochDead, bind_ok, requireOwned_ok, pure, Except.pure,
    Except.ok.injEq] at done
  obtain ⟨-, -, -, -, epoch, ⟨found, owned⟩, rfl⟩ := done
  have named := generationEpoch_of_findEpoch found
  subst named owned
  exact .moved epoch _ found (.reconciled rfl) (clearPointer_epochs ..)

/-! The ledger, the sessions, the receipts and the counters are apart from the identity tables. -/

theorem putTerminal_identity {sessionId : String} {result : TerminalResult} {clock : Reading}
    (done : db.putTerminal sessionId result clock = .ok db') :
    db'.epochs = db.epochs ∧ db'.generations = db.generations := by
  simp only [putTerminal, bind_ok, demand_ok, timestamp_ok] at done
  obtain ⟨start, -, publishedAt, -, _, -, endedAt, -, done⟩ := done
  cases stored : db.terminal.find? sessionId with
  | some existing =>
    simp only [stored, bind_ok, require_ok, pure, Except.pure, Except.ok.injEq,
      exists_const] at done
    obtain ⟨-, rfl⟩ := done
    exact ⟨rfl, rfl⟩
  | none =>
    simp only [stored, bind_ok, demand_ok, pure, Except.pure, Except.ok.injEq] at done
    obtain ⟨terminal, -, rfl⟩ := done
    exact ⟨rfl, rfl⟩

theorem ackTerminal_identity {sessionId ownerId : String} {clock : Reading}
    (done : db.ackTerminal sessionId ownerId clock = .ok db') :
    db'.epochs = db.epochs ∧ db'.generations = db.generations := by
  simp only [ackTerminal, bind_ok] at done
  obtain ⟨record, -, done⟩ := done
  split at done
  · cases done
    exact ⟨rfl, rfl⟩
  · simp at done
  · simp only [bind_ok, pure, Except.pure, Except.ok.injEq] at done
    obtain ⟨now, -, rfl⟩ := done
    exact ⟨rfl, rfl⟩

theorem foldl_bumpBoardSeq_identity (db : Db) (owners : List String) :
    (owners.foldl bumpBoardSeq db).epochs = db.epochs ∧
      (owners.foldl bumpBoardSeq db).generations = db.generations := by
  induction owners generalizing db with
  | nil => exact ⟨rfl, rfl⟩
  | cons owner rest ih => exact ih (db.bumpBoardSeq owner)

theorem reserve_identity {request : Request} {minted : SessionId} {clock : Reading}
    {reservation : Reservation} (done : db.reserve request minted clock = .ok (reservation, db')) :
    db'.epochs = db.epochs ∧ db'.generations = db.generations := by
  simp only [reserve, bind_ok] at done
  obtain ⟨_, -, now, -, done⟩ := done
  split at done
  · simp only [pure, Except.pure, Except.ok.injEq, Prod.mk.injEq] at done
    obtain ⟨-, rfl⟩ := done
    exact ⟨rfl, rfl⟩
  · simp only [bind_ok, pure, Except.pure, Except.ok.injEq, Prod.mk.injEq] at done
    obtain ⟨_, -, _, -, -, rfl⟩ := done
    exact ⟨rfl, rfl⟩

/-- A call of the ledger or of the session store leaves epochs and generations alone. -/
theorem ledger_identity (done : call.apply db = .ok db') :
    match call with
    | .reserve .. | .assignGeneration .. | .commit .. | .fail .. | .createSession ..
    | .transitionSession .. | .putTerminal .. | .ackTerminal .. | .pruneTerminal ..
    | .collectSession .. | .setGenerationConfirmedHighWater .. =>
      db'.epochs = db.epochs ∧ db'.generations = db.generations
    | _ => True := by
  cases call with
  | reserve request minted clock =>
    simp only [Call.apply] at done
    cases reply : db.reserve request minted clock with
    | error raised => simp [reply, Except.map] at done
    | ok r =>
      simp only [reply, Except.map, Except.ok.injEq] at done
      subst done
      exact reserve_identity reply
  | assignGeneration =>
    simp only [Call.apply, assignGeneration, bind_ok, pure, Except.pure, Except.ok.injEq] at done
    obtain ⟨_, -, _, -, _, -, _, -, _, -, rfl⟩ := done
    exact ⟨rfl, rfl⟩
  | commit =>
    simp only [Call.apply, commit, bind_ok, pure, Except.pure, Except.ok.injEq] at done
    obtain ⟨_, -, _, -, _, -, _, -, _, -, _, -, rfl⟩ := done
    exact ⟨rfl, rfl⟩
  | fail =>
    simp only [Call.apply, fail, bind_ok] at done
    obtain ⟨_, -, row, -, _, -, done⟩ := done
    split at done
    · simp only [bind_ok, pure, Except.pure, Except.ok.injEq] at done
      obtain ⟨_, -, rfl⟩ := done
      exact ⟨rfl, rfl⟩
    · simp only [bind_ok, pure, Except.pure, Except.ok.injEq] at done
      obtain ⟨_, -, rfl⟩ := done
      exact ⟨rfl, rfl⟩
  | createSession =>
    simp only [Call.apply, createSession, bind_ok, pure, Except.pure, Except.ok.injEq] at done
    obtain ⟨_, -, _, -, _, -, _, -, _, -, _, -, rfl⟩ := done
    exact ⟨rfl, rfl⟩
  | transitionSession =>
    simp only [Call.apply, transitionSession, bind_ok, pure, Except.pure, Except.ok.injEq] at done
    obtain ⟨_, -, _, -, _, -, _, -, _, -, rfl⟩ := done
    exact ⟨rfl, rfl⟩
  | putTerminal => exact putTerminal_identity done
  | ackTerminal => exact ackTerminal_identity done
  | pruneTerminal age count clock =>
    simp only [Call.apply] at done
    cases reply : db.pruneTerminal age count clock with
    | error raised => simp [reply, Except.map] at done
    | ok r =>
      obtain ⟨n, left⟩ := r
      simp only [reply, Except.map, Except.ok.injEq] at done
      subst done
      obtain ⟨age, now, -, -, -, -, -, -, -, rfl⟩ := pruneTerminal_ok.mp reply
      exact foldl_bumpBoardSeq_identity _ _
  | collectSession =>
    simp only [Call.apply, Except.ok.injEq] at done
    subst done
    exact ⟨rfl, rfl⟩
  | setGenerationConfirmedHighWater =>
    simp only [Call.apply, setGenerationConfirmedHighWater, bind_ok, pure, Except.pure,
      Except.ok.injEq] at done
    obtain ⟨_, -, _, -, rfl⟩ := done
    exact ⟨rfl, rfl⟩
  | _ => trivial

/-- A call that only writes generations leaves the epochs alone. -/
theorem generation_epochs (done : call.apply db = .ok db') :
    match call with
    | .createGeneration .. | .setGenerationLifecycleState .. | .clearCurrentEpoch ..
    | .setCurrentEpoch .. | .setGenerationLifecycleStateAtomic .. => db'.epochs = db.epochs
    | _ => True := by
  cases call with
  | createGeneration =>
    simp only [Call.apply, createGeneration, bind_ok, pure, Except.pure, Except.ok.injEq] at done
    obtain ⟨_, -, _, -, _, -, _, -, _, -, rfl⟩ := done
    rfl
  | setGenerationLifecycleState =>
    simp only [Call.apply, setGenerationLifecycleState, bind_ok, pure, Except.pure,
      Except.ok.injEq] at done
    obtain ⟨_, -, _, -, rfl⟩ := done
    rfl
  | clearCurrentEpoch =>
    simp only [Call.apply, clearCurrentEpoch, bind_ok, pure, Except.pure, Except.ok.injEq] at done
    obtain ⟨_, -, _, -, rfl⟩ := done
    rfl
  | setCurrentEpoch =>
    simp only [Call.apply, setCurrentEpoch, bind_ok, pure, Except.pure, Except.ok.injEq] at done
    obtain ⟨_, -, _, -, _, -, _, -, rfl⟩ := done
    rfl
  | setGenerationLifecycleStateAtomic =>
    simp only [Call.apply, setGenerationLifecycleStateAtomic, bind_ok, pure, Except.pure,
      Except.ok.injEq] at done
    obtain ⟨_, -, _, -, _, -, _, -, _, -, _, -, rfl⟩ := done
    rfl
  | _ => trivial

end Db

/-- What any call does to the epochs. -/
theorem Call.epochsEffect (done : call.apply db = .ok db') : EpochsEffect call db db' := by
  have apart := Db.ledger_identity done
  have generation := Db.generation_epochs done
  cases call with
  | insertEpoch => exact Db.insertEpoch_epochs done
  | casEpochServing => exact Db.casEpochServing_epochs done
  | setEpochProcessState => exact Db.setEpochProcessState_epochs done
  | setEpochRetirement => exact Db.setEpochRetirement_epochs done
  | reconcileEpochDead => exact Db.reconcileEpochDead_epochs done
  | createGeneration => exact .kept generation
  | setGenerationLifecycleState => exact .kept generation
  | clearCurrentEpoch => exact .kept generation
  | setCurrentEpoch => exact .kept generation
  | setGenerationLifecycleStateAtomic => exact .kept generation
  | _ => exact .kept apart.1

/-- What any call leaves of a row: the row itself, a move of it, or a row that was not there. -/
theorem Call.epoch_cases (done : call.apply db = .ok db') {row' : EpochRow}
    (member : row' ∈ db'.epochs.rows) :
    row' ∈ db.epochs.rows ∨
      (∃ row ∈ db.epochs.rows, EpochMove call row row') ∨
      (∃ created, call = .insertEpoch row'.generationEpoch row'.generationId row'.incarnationMeta
          created ∧
        row'.generationEpoch ≠ "" ∧ row'.incarnationMeta ≠ some "" ∧
        row'.processState = .starting ∧ row'.retirementState = .opened ∧
        row'.certificate = .null ∧ row'.finalHighWater = none) := by
  cases Call.epochsEffect done with
  | kept epochs => exact .inl (epochs ▸ member)
  | inserted row created here named shaped starting opened blank unnumbered epochs =>
    rcases (Table.mem_insert epochs).mp member with old | rfl
    · exact .inl old
    · exact .inr (.inr ⟨created, here, named, shaped, starting, opened, blank, unnumbered⟩)
  | moved row moved found move epochs =>
    rw [epochs] at member
    have held : db.epochs.find? moved.generationEpoch = some row := move.key.1 ▸ found
    rcases (Table.mem_update held).mp member with rfl | ⟨old, -⟩
    · exact .inr (.inl ⟨row, Table.mem_of_find? found, move⟩)
    · exact .inl old

/-- No call takes an epoch away. -/
theorem Call.epoch_stays (done : call.apply db = .ok db') {row : EpochRow}
    (member : row ∈ db.epochs.rows) :
    row ∈ db'.epochs.rows ∨ ∃ row' ∈ db'.epochs.rows, EpochMove call row row' := by
  cases Call.epochsEffect done with
  | kept epochs => exact .inl (epochs ▸ member)
  | inserted added _ _ _ _ _ _ _ _ epochs => exact .inl ((Table.mem_insert epochs).mpr (.inl member))
  | moved old moved found move epochs =>
    rw [epochs]
    have held : db.epochs.find? moved.generationEpoch = some old := move.key.1 ▸ found
    by_cases same : row.generationEpoch = old.generationEpoch
    · obtain rfl := Table.eq_of_key member (Table.mem_of_find? found) same
      exact .inr ⟨moved, (Table.mem_update held).mpr (.inl rfl), move⟩
    · refine .inl ((Table.mem_update held).mpr (.inr ⟨member, ?_⟩))
      intro eq
      exact same (eq.trans move.key.1)

/-- An epoch has a name, and no empty incarnation. -/
def EpochsShaped (db : Db) : Prop :=
  ∀ row ∈ db.epochs.rows, row.generationEpoch ≠ "" ∧ row.incarnationMeta ≠ some ""

theorem EpochsShaped.step (shaped : EpochsShaped db) (call : Call) :
    EpochsShaped (machine.step db call).1 := by
  simp only [machine, settled]
  cases done : call.apply db with
  | error raised => exact shaped
  | ok db' =>
    intro row' member
    rcases Call.epoch_cases done member with old | ⟨row, old, move⟩ | ⟨_, -, named, blank, -⟩
    · exact shaped row' old
    · obtain ⟨named, filled⟩ := shaped row old
      refine ⟨move.key.1 ▸ named, ?_⟩
      cases move with
      | promoted expected incarnation here starting given =>
        cases incarnation with
        | none => exact filled
        | some value => exact given
      | retirement state certificate final cell high here bound checked =>
        cases state <;> exact filled
      | process state here => exact filled
      | reconciled here => exact filled
    · exact ⟨named, blank⟩

theorem epochsShaped_after (calls : List Call) : EpochsShaped (machine.after {} calls) :=
  machine.invariant_after EpochsShaped (fun _ call shaped => shaped.step call)
    (fun row member => by cases member) calls

/-! ### What a call does to the generations -/

/-- How the row of a generation can change. -/
inductive GenerationMove (call : Call) (row : GenerationRow) : GenerationRow → Prop
  | served (e : String) (incarnationMeta : Option String)
      (here : call = .casEpochServing row.generationId e row.currentEpoch incarnationMeta) :
      GenerationMove call row { row with currentEpoch := some e }
  | lifecycle (state : Lifecycle) (here : call = .setGenerationLifecycleState row.generationId state) :
      GenerationMove call row { row with lifecycleState := state }
  | cleared (here : call = .clearCurrentEpoch row.generationId) :
      GenerationMove call row { row with currentEpoch := none }
  | pointed (e : String) (here : call = .setCurrentEpoch row.generationId e) :
      GenerationMove call row { row with currentEpoch := some e }
  | reconciled (e : String) (here : call = .reconcileEpochDead row.generationId e)
      (named : row.currentEpoch = some e) :
      GenerationMove call row { row with currentEpoch := none }

/-- What a call does to the generations. -/
inductive GenerationsEffect (call : Call) (db db' : Db) : Prop
  | kept (generations : db'.generations = db.generations)
  | created (row : GenerationRow) (created : Reading)
      (here : call = .createGeneration row.generationId row.buildId row.lifecycleState
        row.capabilitySnapshot created)
      (unserved : row.currentEpoch = none)
      (generations : db.generations.insert row = some db'.generations)
  | moved (row row' : GenerationRow) (found : db.findGeneration row.generationId = some row)
      (move : GenerationMove call row row') (generations : db'.generations = db.generations.update row')
  | flipped (old new : GenerationRow) (newStateOld : Lifecycle)
      (here : call = .setGenerationLifecycleStateAtomic old.generationId new.generationId newStateOld
        old.lifecycleState new.lifecycleState)
      (foundOld : db.findGeneration old.generationId = some old)
      (foundNew : db.findGeneration new.generationId = some new)
      (generations : db'.generations =
        (db.generations.update { old with lifecycleState := newStateOld }).update
          { new with lifecycleState := .active })

theorem GenerationMove.key {row row' : GenerationRow} (move : GenerationMove call row row') :
    row'.generationId = row.generationId := by
  cases move <;> rfl

namespace Db

theorem requireGeneration_ok {g : String} {row : GenerationRow} :
    db.requireGeneration g = .ok row ↔ db.findGeneration g = some row := demand_ok ..

theorem generationId_of_findGeneration {g : String} {row : GenerationRow}
    (found : db.findGeneration g = some row) : row.generationId = g :=
  Table.key_of_find? found

theorem createGeneration_generations {g : String} {build snapshot : Option String}
    {state : Lifecycle} {created : Reading}
    (done : db.createGeneration g build state snapshot created = .ok db') :
    GenerationsEffect (.createGeneration g build state snapshot created) db db' := by
  simp only [createGeneration, bind_ok, timestamp_ok, demand_ok, pure, Except.pure,
    Except.ok.injEq] at done
  obtain ⟨_, -, _, -, _, -, t, rfl, generations, inserted, rfl⟩ := done
  exact .created _ (.finite t) rfl rfl inserted

theorem casEpochServing_generations {g e : String} {expected incarnation : Option String}
    (done : db.casEpochServing g e expected incarnation = .ok db') :
    GenerationsEffect (.casEpochServing g e expected incarnation) db db' := by
  simp only [casEpochServing, bind_ok, require_ok, requireGeneration_ok, pure, Except.pure,
    Except.ok.injEq, exists_const] at done
  obtain ⟨_, -, _, -, _, -, row, found, rfl, _, -, -, -, rfl⟩ := done
  have named := generationId_of_findGeneration found
  subst named
  exact .moved row _ found (.served e incarnation rfl) rfl

theorem reconcileEpochDead_generations {g e : String}
    (done : db.reconcileEpochDead g e = .ok db') :
    GenerationsEffect (.reconcileEpochDead g e) db db' := by
  simp only [reconcileEpochDead, bind_ok, pure, Except.pure, Except.ok.injEq] at done
  obtain ⟨_, -, _, -, epoch, -, rfl⟩ := done
  cases found : db.findGeneration g with
  | none =>
    refine .kept ?_
    simp only [clearPointer, show (db.setEpochRow _).findGeneration g = none from found]
    rfl
  | some row =>
    have named := generationId_of_findGeneration found
    subst named
    by_cases points : row.currentEpoch = some e
    · refine .moved row _ found (.reconciled e rfl points) ?_
      simp only [clearPointer, show (db.setEpochRow _).findGeneration _ = some row from found,
        if_pos points]
      rfl
    · refine .kept ?_
      simp only [clearPointer, show (db.setEpochRow _).findGeneration _ = some row from found,
        if_neg points]
      rfl

theorem setGenerationLifecycleStateAtomic_generations {old new : String}
    {newStateOld fromOld fromNew : Lifecycle}
    (done : db.setGenerationLifecycleStateAtomic old new newStateOld fromOld fromNew = .ok db') :
    GenerationsEffect (.setGenerationLifecycleStateAtomic old new newStateOld fromOld fromNew)
      db db' := by
  simp only [setGenerationLifecycleStateAtomic, bind_ok, require_ok, demand_ok, pure, Except.pure,
    Except.ok.injEq, exists_const] at done
  obtain ⟨_, -, _, -, oldRow, foundOld, rfl, newRow, foundNew, rfl, rfl⟩ := done
  have named := generationId_of_findGeneration foundOld
  have named' := generationId_of_findGeneration foundNew
  subst named named'
  exact .flipped oldRow newRow newStateOld rfl foundOld foundNew rfl

/-- A call that only writes epochs leaves the generations alone. -/
theorem epoch_generations (done : call.apply db = .ok db') :
    match call with
    | .insertEpoch .. | .setEpochProcessState .. | .setEpochRetirement .. =>
      db'.generations = db.generations
    | _ => True := by
  cases call with
  | insertEpoch =>
    simp only [Call.apply, insertEpoch, bind_ok, pure, Except.pure, Except.ok.injEq] at done
    obtain ⟨_, -, _, -, _, -, _, -, _, -, _, -, rfl⟩ := done
    rfl
  | setEpochProcessState =>
    simp only [Call.apply, setEpochProcessState, bind_ok, pure, Except.pure, Except.ok.injEq] at done
    obtain ⟨_, -, _, -, _, -, rfl⟩ := done
    rfl
  | setEpochRetirement =>
    obtain ⟨-, _, _, _, -, -, -, -, rfl⟩ := setEpochRetirement_ok.mp done
    rfl
  | _ => trivial

end Db

/-- What any call does to the generations. -/
theorem Call.generationsEffect (done : call.apply db = .ok db') :
    GenerationsEffect call db db' := by
  have apart := Db.ledger_identity done
  have epochs := Db.epoch_generations done
  cases call with
  | createGeneration => exact Db.createGeneration_generations done
  | casEpochServing => exact Db.casEpochServing_generations done
  | reconcileEpochDead => exact Db.reconcileEpochDead_generations done
  | setGenerationLifecycleStateAtomic => exact Db.setGenerationLifecycleStateAtomic_generations done
  | setGenerationLifecycleState g state =>
    simp only [Call.apply, Db.setGenerationLifecycleState, bind_ok, Db.requireGeneration_ok, pure,
      Except.pure, Except.ok.injEq] at done
    obtain ⟨_, -, row, found, rfl⟩ := done
    have named := Db.generationId_of_findGeneration found
    subst named
    exact .moved row _ found (.lifecycle state rfl) rfl
  | clearCurrentEpoch g =>
    simp only [Call.apply, Db.clearCurrentEpoch, bind_ok, Db.requireGeneration_ok, pure,
      Except.pure, Except.ok.injEq] at done
    obtain ⟨_, -, row, found, rfl⟩ := done
    have named := Db.generationId_of_findGeneration found
    subst named
    exact .moved row _ found (.cleared rfl) rfl
  | setCurrentEpoch g e =>
    simp only [Call.apply, Db.setCurrentEpoch, bind_ok, Db.requireGeneration_ok, pure,
      Except.pure, Except.ok.injEq] at done
    obtain ⟨_, -, _, -, row, found, _, -, rfl⟩ := done
    have named := Db.generationId_of_findGeneration found
    subst named
    exact .moved row _ found (.pointed e rfl) rfl
  | insertEpoch => exact .kept epochs
  | setEpochProcessState => exact .kept epochs
  | setEpochRetirement => exact .kept epochs
  | _ => exact .kept apart.2

end Nelix.Store
