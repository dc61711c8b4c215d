import Nelix.Store.Epochs
import Nelix.Core.Machine

/-!
# Runs of the store

Every call of a write method is one transaction, so an interleaving of any number of connections
is a list of calls. `StartsEffect` says once what a call can do to the starts and to the sessions;
the laws of the ledger are read off it.
-/
namespace Nelix.Store

open Contracts Core

/-- The write methods of the ledger and of the store, with their arguments. -/
inductive Call
  | reserve (request : Request) (minted : SessionId) (clock : Reading)
  | assignGeneration (sessionId generationId generationEpoch : String)
  | commit (sessionId generationId generationEpoch : String)
  | fail (sessionId reason : String)
  | createSession (sessionId : String) (spec : SessionSpec)
  | transitionSession (sessionId ownerId state : String) (expectedState : Option String)
  | putTerminal (sessionId : String) (result : TerminalResult) (clock : Reading)
  | ackTerminal (sessionId ownerId : String) (clock : Reading)
  | pruneTerminal (maxAge : AgeLimit) (maxCount : ℤ) (clock : Reading)
  | collectSession (sessionId : String) (pastHorizon : Bool)
  | createGeneration (generationId : String) (buildId : Option String)
      (lifecycleState : Lifecycle) (capabilitySnapshot : Option String) (createdAt : Reading)
  | insertEpoch (generationEpoch generationId : String) (incarnationMeta : Option String)
      (createdAt : Reading)
  | casEpochServing (generationId generationEpoch : String)
      (expectedCurrentEpoch incarnationMeta : Option String)
  | setEpochProcessState (generationEpoch : String) (state : ProcessState)
  | setEpochRetirement (generationEpoch : String) (state : RetirementState)
      (certificate : CertificateArg) (finalHighWater : Option ℤ)
  | setGenerationLifecycleState (generationId : String) (state : Lifecycle)
  | clearCurrentEpoch (generationId : String)
  | setCurrentEpoch (generationId generationEpoch : String)
  | setGenerationConfirmedHighWater (generationEpoch : String) (seq : ℤ)
  | setGenerationLifecycleStateAtomic (oldId newId : String)
      (newStateOld expectedOldState expectedNewState : Lifecycle)
  | reconcileEpochDead (generationId generationEpoch : String)

def Call.apply (db : Db) : Call → Outcome Db
  | reserve request minted clock => (db.reserve request minted clock).map Prod.snd
  | assignGeneration sid g e => db.assignGeneration sid g e
  | commit sid g e => db.commit sid g e
  | fail sid reason => db.fail sid reason
  | createSession sid spec => db.createSession sid spec
  | transitionSession sid owner state expected => db.transitionSession sid owner state expected
  | putTerminal sid result clock => db.putTerminal sid result clock
  | ackTerminal sid owner clock => db.ackTerminal sid owner clock
  | pruneTerminal age count clock => (db.pruneTerminal age count clock).map Prod.snd
  | collectSession sid past => .ok (db.collectSession sid past)
  | createGeneration g build lifecycle snapshot created =>
    db.createGeneration g build lifecycle snapshot created
  | insertEpoch e g incarnation created => db.insertEpoch e g incarnation created
  | casEpochServing g e expected incarnation => db.casEpochServing g e expected incarnation
  | setEpochProcessState e state => db.setEpochProcessState e state
  | setEpochRetirement e state certificate high => db.setEpochRetirement e state certificate high
  | setGenerationLifecycleState g state => db.setGenerationLifecycleState g state
  | clearCurrentEpoch g => db.clearCurrentEpoch g
  | setCurrentEpoch g e => db.setCurrentEpoch g e
  | setGenerationConfirmedHighWater e seq => db.setGenerationConfirmedHighWater e seq
  | setGenerationLifecycleStateAtomic old new moved fromOld fromNew =>
    db.setGenerationLifecycleStateAtomic old new moved fromOld fromNew
  | reconcileEpochDead g e => db.reconcileEpochDead g e

/-- What a transaction leaves: the new database, or the old one when it raised. -/
def settled (db : Db) : Outcome Db → Db
  | .ok db' => db'
  | .error _ => db

/-- The database under a list of calls; its outputs are what they raised. -/
def machine : Machine Db Call Raised where
  step db call :=
    (settled db (call.apply db),
      match call.apply db with
      | .ok _ => []
      | .error raised => [raised])

/-! ### What a call does to the starts -/

/-- How a row of the ledger can change. -/
inductive StartMove (call : Call) (db : Db) (row : StartRow) : StartRow → Prop
  | bound (generationId generationEpoch : String)
      (assigns : call = .assignGeneration row.sessionId generationId generationEpoch)
      (starting : row.state = .starting)
      (same : row.generationId = none ∨ row.generationId = some generationId)
      (valid : validGenerationId generationId = true ∧ validGenerationId generationEpoch = true) :
      StartMove call db row { row with
        generationId := some generationId
        generationEpoch := some generationEpoch }
  | committed (alive : row.state ≠ .failed) (assigned : row.generationId ≠ none) :
      StartMove call db row { row with state := .started }
  | failed (reason : String) (starting : row.state = .starting)
      (unused : db.sessions.find? row.sessionId = none) :
      StartMove call db row { row with state := .failed, reason := some reason }

/-- What a call does to the starts and to the keys of the sessions. -/
inductive StartsEffect (call : Call) (db db' : Db) : Prop
  | kept (starts : db'.starts = db.starts)
      (sessions : ∀ sid, (db'.sessions.find? sid).isSome = (db.sessions.find? sid).isSome)
  | reserved (request : Request) (minted : SessionId) (clock : Reading) (now : ℚ)
      (reserves : call = .reserve request minted clock)
      (asked : Db.checkRequest request = .ok ())
      (fresh : db.startOf request.ownerId request.idempotencyKey = none)
      (starts : db.starts.insert (Db.freshStart request minted now) = some db'.starts)
      (sessions : db'.sessions = db.sessions)
  | moved (row row' : StartRow) (found : db.findStart row.sessionId = some row)
      (move : StartMove call db row row') (starts : db'.starts = db.starts.update row')
      (sessions : db'.sessions = db.sessions)
  | created (start : StartRow) (spec : SessionSpec)
      (creates : call = .createSession start.sessionId spec)
      (found : db.findStart start.sessionId = some start) (alive : start.state ≠ .failed)
      (identified : start.identified = true)
      (starts : db'.starts = db.starts)
      (sessions : ∀ sid, (db'.sessions.find? sid).isSome =
        (decide (sid = start.sessionId) || (db.sessions.find? sid).isSome))
  | collected (sessionId : String) (pastHorizon : Bool)
      (collects : call = .collectSession sessionId pastHorizon)
      (starts : db'.starts = db.starts ∨ db'.starts = db.starts.erase sessionId)
      (sessions : db'.sessions = db.sessions.erase sessionId)

theorem StartsEffect.of_same {call : Call} {db db' : Db} (starts : db'.starts = db.starts)
    (sessions : db'.sessions = db.sessions) : StartsEffect call db db' :=
  .kept starts fun sid => by rw [sessions]

namespace Db

variable {db db' : Db} {call : Call}

theorem requireStart_ok {sessionId : String} {row : StartRow} :
    db.requireStart sessionId = .ok row ↔ db.findStart sessionId = some row := demand_ok ..

theorem sessionId_of_findStart {sessionId : String} {row : StartRow}
    (found : db.findStart sessionId = some row) : row.sessionId = sessionId :=
  Table.key_of_find? found

theorem reserve_effect {request : Request} {minted : SessionId} {clock : Reading}
    {reservation : Reservation} (done : db.reserve request minted clock = .ok (reservation, db')) :
    StartsEffect (.reserve request minted clock) db db' := by
  simp only [reserve, bind_ok, timestamp_ok] at done
  obtain ⟨_, asked, now, -, done⟩ := done
  cases inserted : db.insertStart (freshStart request minted now) with
  | some starts =>
    rw [inserted] at done
    simp only [pure, Except.pure, Except.ok.injEq, Prod.mk.injEq] at done
    obtain ⟨-, rfl⟩ := done
    unfold insertStart at inserted
    cases taken : db.startOf (freshStart request minted now).ownerId
        (freshStart request minted now).idempotencyKey with
    | some row => simp [taken] at inserted
    | none =>
      rw [taken] at inserted
      exact .reserved request minted clock now rfl asked taken inserted rfl
  | none =>
    -- The key was taken: the original reservation is replayed and nothing is written.
    simp only [inserted, bind_ok, demand_ok, pure, Except.pure, Except.ok.injEq,
      Prod.mk.injEq] at done
    obtain ⟨_, -, _, -, -, rfl⟩ := done
    exact .of_same rfl rfl

theorem assignGeneration_effect {sessionId generationId generationEpoch : String}
    (done : db.assignGeneration sessionId generationId generationEpoch = .ok db') :
    StartsEffect (.assignGeneration sessionId generationId generationEpoch) db db' := by
  simp only [assignGeneration, checkGeneration, bind_ok, require_ok, requireStart_ok, pure,
    Except.pure, Except.ok.injEq, exists_const] at done
  obtain ⟨valid, epochValid, row, found, starting, same, rfl⟩ := done
  have named := sessionId_of_findStart found
  exact .moved row _ (named ▸ found) 
    (.bound _ _ (named ▸ rfl) starting same ⟨valid, epochValid⟩) rfl rfl

theorem commit_effect {sessionId generationId generationEpoch : String}
    (done : db.commit sessionId generationId generationEpoch = .ok db') :
    StartsEffect call db db' := by
  simp only [commit, checkGeneration, bind_ok, require_ok, requireStart_ok, pure,
    Except.pure, Except.ok.injEq, exists_const] at done
  obtain ⟨-, -, row, found, alive, same, -, rfl⟩ := done
  have named := sessionId_of_findStart found
  exact .moved row _ (named ▸ found) (.committed alive (by simp [same])) rfl rfl

theorem fail_effect {sessionId reason : String} (done : db.fail sessionId reason = .ok db') :
    StartsEffect call db db' := by
  simp only [fail, requireText, bind_ok, require_ok, requireStart_ok, exists_const] at done
  obtain ⟨-, row, found, alive, done⟩ := done
  have named := sessionId_of_findStart found
  split at done
  · simp only [bind_ok, require_ok, pure, Except.pure, Except.ok.injEq, exists_const] at done
    obtain ⟨-, rfl⟩ := done
    exact .of_same rfl rfl
  · rename_i unfailed
    simp only [bind_ok, require_ok, pure, Except.pure, Except.ok.injEq, exists_const] at done
    obtain ⟨unused, rfl⟩ := done
    have starting : row.state = .starting := by
      cases state : row.state <;> simp_all
    exact .moved row _ (named ▸ found) (.failed reason starting (named ▸ unused)) rfl rfl

/-- The write side and the read side check the same identity. -/
theorem checkIdentity_ok {start : StartRow} :
    checkIdentity start = .ok () ↔ start.identified = true := by
  cases generation : start.generationId <;> cases epoch : start.generationEpoch <;>
    simp [checkIdentity, checkAssigned, checkOwner, checkOrchestration, checkGeneration,
      StartRow.identified, generation, epoch, bind_ok, require_ok, refuse, and_assoc]

theorem createSession_effect {sessionId : String} {spec : SessionSpec}
    (done : db.createSession sessionId spec = .ok db') :
    StartsEffect (.createSession sessionId spec) db db' := by
  simp only [createSession, bind_ok, require_ok, demand_ok, timestamp_ok, pure, Except.pure,
    Except.ok.injEq, exists_const] at done
  obtain ⟨start, found, -, alive, ⟨⟩, identity, created, -, sessions, inserted, rfl⟩ := done
  have named := sessionId_of_findStart found
  refine .created start spec (named ▸ rfl) (named ▸ found) alive (checkIdentity_ok.mp identity) rfl
    fun sid => ?_
  rw [Table.find?_insert inserted, named]
  by_cases same : sid = sessionId
  · simp [Keyed.key, same]
  · have other : ¬ sessionId = sid := fun eq => same eq.symm
    simp [Keyed.key, same, other]

/-! The other calls leave the ledger alone. -/

@[simp] theorem setProgress_starts (row : ProgressRow) : (db.setProgress row).starts = db.starts :=
  rfl

@[simp] theorem setProgress_sessions (row : ProgressRow) :
    (db.setProgress row).sessions = db.sessions := rfl

@[simp] theorem bumpBoardSeq_starts (owner : String) :
    (db.bumpBoardSeq owner).starts = db.starts := rfl

@[simp] theorem bumpBoardSeq_sessions (owner : String) :
    (db.bumpBoardSeq owner).sessions = db.sessions := rfl

theorem transitionSession_effect {sessionId ownerId state : String} {expected : Option String}
    (done : db.transitionSession sessionId ownerId state expected = .ok db') :
    StartsEffect call db db' := by
  simp only [transitionSession, requireText, bind_ok, require_ok, demand_ok, pure, Except.pure,
    Except.ok.injEq, exists_const] at done
  obtain ⟨-, row, found, start, -, -, -, rfl⟩ := done
  refine .kept rfl fun sid => ?_
  rw [Table.find?_update]
  split
  · cases db.sessions.find? sid <;> rfl
  · rfl

theorem putTerminal_effect {sessionId : String} {result : TerminalResult} {clock : Reading}
    (done : db.putTerminal sessionId result clock = .ok db') :
    db'.starts = db.starts ∧ db'.sessions = db.sessions := by
  simp only [putTerminal, bind_ok, demand_ok, timestamp_ok] at done
  obtain ⟨start, -, publishedAt, -, _, -, endedAt, -, done⟩ := done
  cases stored : db.terminal.find? sessionId with
  | some existing =>
    simp only [stored, bind_ok, require_ok, pure, Except.pure, Except.ok.injEq,
      exists_const] at done
    obtain ⟨-, rfl⟩ := done
    exact ⟨rfl, rfl⟩
  | none =>
    simp only [stored, bind_ok, demand_ok, pure, Except.pure, Except.ok.injEq] at done
    obtain ⟨terminal, -, rfl⟩ := done
    exact ⟨rfl, rfl⟩

theorem ackTerminal_effect {sessionId ownerId : String} {clock : Reading}
    (done : db.ackTerminal sessionId ownerId clock = .ok db') :
    db'.starts = db.starts ∧ db'.sessions = db.sessions := by
  simp only [ackTerminal, bind_ok] at done
  obtain ⟨record, -, done⟩ := done
  split at done
  · cases done
    exact ⟨rfl, rfl⟩
  · simp at done
  · simp only [bind_ok, pure, Except.pure, Except.ok.injEq] at done
    obtain ⟨now, -, rfl⟩ := done
    exact ⟨rfl, rfl⟩

theorem foldl_bumpBoardSeq (db : Db) (owners : List String) :
    (owners.foldl bumpBoardSeq db).starts = db.starts ∧
      (owners.foldl bumpBoardSeq db).sessions = db.sessions := by
  induction owners generalizing db with
  | nil => exact ⟨rfl, rfl⟩
  | cons owner rest ih => exact ih (db.bumpBoardSeq owner)

theorem pruneTerminal_effect {maxAge : AgeLimit} {maxCount : ℤ} {clock : Reading} {n : ℕ}
    (done : db.pruneTerminal maxAge maxCount clock = .ok (n, db')) :
    db'.starts = db.starts ∧ db'.sessions = db.sessions := by
  obtain ⟨age, now, -, -, -, -, -, -, -, rfl⟩ := pruneTerminal_ok.mp done
  exact foldl_bumpBoardSeq _ _

theorem clearPointer_ledger (generationId generationEpoch : String) :
    (db.clearPointer generationId generationEpoch).starts = db.starts ∧
      (db.clearPointer generationId generationEpoch).sessions = db.sessions ∧
      (db.clearPointer generationId generationEpoch).terminal = db.terminal := by
  unfold clearPointer
  split
  · exact ⟨rfl, rfl, rfl⟩
  · split <;> exact ⟨rfl, rfl, rfl⟩

theorem setEpochRetirement_ok {generationEpoch : String} {state : RetirementState}
    {certificate : CertificateArg} {finalHighWater : Option ℤ} :
    db.setEpochRetirement generationEpoch state certificate finalHighWater = .ok db' ↔
      generationEpoch ≠ "" ∧ ∃ high cell epoch,
        checkHighWater finalHighWater = .ok high ∧
        boundCertificate state certificate = .ok cell ∧
        ¬ (state = .certified ∧ maxInteger < finalHighWater.getD 0) ∧
        db.findEpoch generationEpoch = some epoch ∧
        db.setEpochRow (retired epoch state cell high) = db' := by
  simp only [setEpochRetirement, requireText, requireEpoch, bind_ok, require_ok, exists_const]
  constructor
  · rintro ⟨named, high, checked, cell, bound, done⟩
    split at done
    · cases done
    · rename_i fits
      simp only [bind_ok, demand_ok, pure, Except.pure, Except.ok.injEq] at done
      obtain ⟨epoch, found, written⟩ := done
      exact ⟨named, high, cell, epoch, checked, bound, fits, found, written⟩
  · rintro ⟨named, high, cell, epoch, checked, bound, fits, found, written⟩
    refine ⟨named, high, checked, cell, bound, ?_⟩
    rw [if_neg fits]
    simp only [bind_ok, demand_ok, pure, Except.pure, Except.ok.injEq]
    exact ⟨epoch, found, written⟩

/-- A call of the identity API writes epochs and generations only. -/
theorem identity_ledger (done : call.apply db = .ok db') :
    match call with
    | .createGeneration .. | .insertEpoch .. | .casEpochServing .. | .setEpochProcessState ..
    | .setEpochRetirement .. | .setGenerationLifecycleState .. | .clearCurrentEpoch ..
    | .setCurrentEpoch .. | .setGenerationConfirmedHighWater ..
    | .setGenerationLifecycleStateAtomic .. | .reconcileEpochDead .. =>
      db'.starts = db.starts ∧ db'.sessions = db.sessions ∧ db'.terminal = db.terminal
    | _ => True := by
  cases call with
  | createGeneration =>
    simp only [Call.apply, createGeneration, bind_ok, demand_ok, pure, Except.pure,
      Except.ok.injEq] at done
    obtain ⟨_, -, _, -, _, -, _, -, _, -, rfl⟩ := done
    exact ⟨rfl, rfl, rfl⟩
  | insertEpoch =>
    simp only [Call.apply, insertEpoch, bind_ok, demand_ok, pure, Except.pure,
      Except.ok.injEq] at done
    obtain ⟨_, -, _, -, _, -, _, -, _, -, _, -, rfl⟩ := done
    exact ⟨rfl, rfl, rfl⟩
  | casEpochServing =>
    simp only [Call.apply, casEpochServing, bind_ok, pure, Except.pure, Except.ok.injEq] at done
    obtain ⟨_, -, _, -, _, -, _, -, _, -, _, -, _, -, _, -, rfl⟩ := done
    exact ⟨rfl, rfl, rfl⟩
  | setEpochProcessState =>
    simp only [Call.apply, setEpochProcessState, bind_ok, pure, Except.pure,
      Except.ok.injEq] at done
    obtain ⟨_, -, _, -, _, -, rfl⟩ := done
    exact ⟨rfl, rfl, rfl⟩
  | setEpochRetirement =>
    obtain ⟨-, _, _, _, -, -, -, -, rfl⟩ := setEpochRetirement_ok.mp done
    exact ⟨rfl, rfl, rfl⟩
  | setGenerationLifecycleState =>
    simp only [Call.apply, setGenerationLifecycleState, bind_ok, pure, Except.pure,
      Except.ok.injEq] at done
    obtain ⟨_, -, _, -, rfl⟩ := done
    exact ⟨rfl, rfl, rfl⟩
  | clearCurrentEpoch =>
    simp only [Call.apply, clearCurrentEpoch, bind_ok, pure, Except.pure,
      Except.ok.injEq] at done
    obtain ⟨_, -, _, -, rfl⟩ := done
    exact ⟨rfl, rfl, rfl⟩
  | setCurrentEpoch =>
    simp only [Call.apply, setCurrentEpoch, bind_ok, pure, Except.pure,
      Except.ok.injEq] at done
    obtain ⟨_, -, _, -, _, -, _, -, rfl⟩ := done
    exact ⟨rfl, rfl, rfl⟩
  | setGenerationConfirmedHighWater =>
    simp only [Call.apply, setGenerationConfirmedHighWater, bind_ok, pure, Except.pure,
      Except.ok.injEq] at done
    obtain ⟨_, -, _, -, rfl⟩ := done
    exact ⟨rfl, rfl, rfl⟩
  | setGenerationLifecycleStateAtomic =>
    simp only [Call.apply, setGenerationLifecycleStateAtomic, bind_ok, pure, Except.pure,
      Except.ok.injEq] at done
    obtain ⟨_, -, _, -, _, -, _, -, _, -, _, -, rfl⟩ := done
    exact ⟨rfl, rfl, rfl⟩
  | reconcileEpochDead g e =>
    simp only [Call.apply, reconcileEpochDead, bind_ok, pure, Except.pure,
      Except.ok.injEq] at done
    obtain ⟨_, -, _, -, _, -, rfl⟩ := done
    exact clearPointer_ledger g e
  | _ => trivial

end Db

/-- What any call does to the ledger. -/
theorem Call.startsEffect {db db' : Db} {call : Call} (done : call.apply db = .ok db') :
    StartsEffect call db db' := by
  have identity := Db.identity_ledger done
  cases call with
  | reserve request minted clock =>
    simp only [Call.apply] at done
    cases reply : db.reserve request minted clock with
    | error raised => simp [reply, Except.map] at done
    | ok r =>
      simp only [reply, Except.map, Except.ok.injEq] at done
      subst done
      exact Db.reserve_effect reply
  | assignGeneration => exact Db.assignGeneration_effect done
  | commit => exact Db.commit_effect done
  | fail => exact Db.fail_effect done
  | createSession => exact Db.createSession_effect done
  | transitionSession => exact Db.transitionSession_effect done
  | putTerminal =>
    obtain ⟨starts, sessions⟩ := Db.putTerminal_effect done
    exact .of_same starts sessions
  | ackTerminal =>
    obtain ⟨starts, sessions⟩ := Db.ackTerminal_effect done
    exact .of_same starts sessions
  | pruneTerminal age count clock =>
    simp only [Call.apply] at done
    cases reply : db.pruneTerminal age count clock with
    | error raised => simp [reply, Except.map] at done
    | ok r =>
      simp only [reply, Except.map, Except.ok.injEq] at done
      subst done
      obtain ⟨starts, sessions⟩ := Db.pruneTerminal_effect reply
      exact .of_same starts sessions
  | collectSession sid past =>
    simp only [Call.apply, Except.ok.injEq] at done
    subst done
    refine .collected sid past rfl ?_ rfl
    cases past
    · exact .inl rfl
    · exact .inr rfl
  | _ => exact .of_same identity.1 identity.2.1

end Nelix.Store
