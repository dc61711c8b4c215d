import Nelix.Daemon.Reaper
import Nelix.Store.ReceiptRuns

/-!
# Crash reconciliation

What `crashReconcileEpoch` makes of a home whose daemon has died: the database, the records of the
agents, the processes that are left and a clock.

## Main results

`runs_reconcileDead`, `reconciled_iff`: exactly when an epoch is reconciled.
-/
namespace Nelix.Router

open Contracts Core Store Prog Routine Daemon

/-- A home: the store, and the record in each session's directory. -/
structure Home where
  db : Db := {}
  children : String → ChildFile := fun _ => .missing
  /-- How often the clock was read. -/
  reads : ℕ := 0

/-- The process table, as the operator finds it. -/
structure Processes where
  alive : ℤ → Bool
  startFingerprint : ℤ → Option String
  killpg : ℤ → Signal → KillResult

/-- The effects of the operator on a home. -/
def Home.answer (table : Processes) (clock : ℕ → ℚ) : (a : Act) → Home → a.Answer × Home
  | ⟨_, .ask q⟩, w => (w.db.answer q, w)
  | ⟨_, .write call⟩, w =>
    ((call.apply w.db).map fun _ => (), { w with db := settled w.db (call.apply w.db) })
  | ⟨_, .generations⟩, w => ([], w)
  | ⟨_, .forward ..⟩, w => (refuse .generationUnavailable "generation unavailable", w)
  | ⟨_, .lock⟩, w => (.ok (), w)
  | ⟨_, .unlock⟩, w => ((), w)
  | ⟨_, .reapHolder ..⟩, w => (.ok true, w)
  | ⟨_, .releaseEpoch ..⟩, w => (.ok (), w)
  | ⟨_, .pidAlive pid⟩, w => (.ok (table.alive pid), w)
  | ⟨_, .readChild sessionId⟩, w => (w.children sessionId, w)
  | ⟨_, .startFingerprint pid⟩, w => (table.startFingerprint pid, w)
  | ⟨_, .killpg pgid signal⟩, w => (table.killpg pgid signal, w)
  | ⟨_, .time⟩, w => (clock w.reads, { w with reads := w.reads + 1 })

/-- A routine that nobody else disturbs. -/
abbrev Home.runs {α : Type} (table : Processes) (clock : ℕ → ℚ) (p : Routine α) (w : Home) :
    Except Raised α × Home := p.run (Home.answer table clock) w

variable {table : Processes} {clock : ℕ → ℚ} {w w' : Home} {e g : String} {at_ : Surroundings}

/-- What every home satisfies. -/
structure Home.Sound (w : Home) : Prop where
  shaped : EpochsShaped w.db
  backed : SessionsBacked w.db

/-! ### Single effects -/

theorem runs_bind {α β : Type} (p : Routine α) (f : α → Routine β) :
    Home.runs table clock (p >>= f) w =
      match Home.runs table clock p w with
      | (.ok a, w') => Home.runs table clock (f a) w'
      | (.error x, w') => (.error x, w') := by
  rw [Home.runs, run_bind, Home.runs]
  rcases p.run (Home.answer table clock) w with ⟨r, w'⟩
  cases r <;> rfl

theorem runs_ask {α : Type} (site : Site) (q : Query) (f : q.Value → Routine α) :
    Home.runs table clock (ask site q >>= f) w =
      match w.db.answer q with
      | .ok a => Home.runs table clock (f a) w
      | .error x => (.error x, w) := by
  simp only [Home.runs, ask, run_bind, run_perform, run_done, Home.answer]
  cases w.db.answer q <;> rfl

theorem runs_write (site : Site) (call : Store.Call) :
    Home.runs table clock (write site call) w =
      match call.apply w.db with
      | .ok db' => (.ok (), { w with db := db' })
      | .error x => (.error x, w) := by
  simp only [Home.runs, write, run_perform, run_done, Home.answer]
  cases call.apply w.db <;> rfl

/-! ### The children -/

/-- What a signal on the way to the end says: gone already is as good. -/
def signalVerdict (failed : String → Obstacle) : KillResult → Except Raised (Option Obstacle)
  | .delivered | .processLookupError => .ok none
  | .permissionError => .ok (some .childGroupStillAlive)
  | .osError message => .ok (some (failed message))
  | .raised exception => .error exception

/-- What the probe at the end says. -/
def probeVerdict : KillResult → Except Raised (Option Obstacle)
  | .processLookupError => .ok none
  | .delivered | .permissionError => .ok (some .childGroupStillAlive)
  | .osError message => .ok (some (.childGroupVerifyFailed message))
  | .raised exception => .error exception

/-- The first verdict on the way, if any. -/
def orElse (first second : Except Raised (Option Obstacle)) : Except Raised (Option Obstacle) :=
  match first with
  | .ok none => second
  | verdict => verdict

/-- Whether a group can be ended. -/
def groupVerdict (table : Processes) (pgid : ℤ) : Except Raised (Option Obstacle) :=
  orElse (signalVerdict (.killpgSigtermFailed pgid) (table.killpg pgid .term)) <|
    orElse (signalVerdict (.killpgSigkillFailed pgid) (table.killpg pgid .kill))
      (probeVerdict (table.killpg pgid .probe))

/-- What stands in the way of ending one session's group. -/
def childVerdict (table : Processes) (sessionId : String) :
    ChildFile → Except Raised (Option Obstacle)
  | .missing => .ok (some (.childRecordMissing sessionId))
  | .malformed => .ok (some (.childRecordMalformed sessionId))
  | .undecodable => .error .valueError
  | .record record =>
    match childIdentity sessionId record with
    | .error obstacle => .ok (some obstacle)
    | .ok (pid, pgid, fingerprint) =>
      if staleFingerprint (table.startFingerprint pid) fingerprint then
        .ok (some (.childFingerprintMismatch sessionId))
      else groupVerdict table pgid

theorem runs_signalGroup {pgid : ℤ} {signal : Signal} {failed : String → Obstacle} :
    Home.runs table clock (signalGroup pgid signal failed) w =
      (signalVerdict failed (table.killpg pgid signal), w) := by
  simp only [Home.runs, signalGroup, killpg, run_bind, run_perform, run_done, Home.answer]
  cases table.killpg pgid signal <;> rfl

theorem runs_verifyGone {pgid : ℤ} :
    Home.runs table clock (verifyGone pgid) w = (probeVerdict (table.killpg pgid .probe), w) := by
  simp only [Home.runs, verifyGone, killpg, run_bind, run_perform, run_done, Home.answer]
  cases table.killpg pgid .probe <;> rfl

/-- A routine that leaves no trace, with another one behind it. -/
theorem runs_otherwise {p q : Routine (Option Obstacle)}
    {first second : Except Raised (Option Obstacle)} (ran : Home.runs table clock p w = (first, w))
    (after : Home.runs table clock q w = (second, w)) :
    Home.runs table clock (p.otherwise q) w = (orElse first second, w) := by
  rw [Prog.otherwise, runs_bind, ran]
  rcases first with x | none | obstacle
  · rfl
  · exact after
  · rfl

theorem runs_reapChildGroup (sessionId : String) :
    Home.runs table clock (reapChildGroup sessionId) w =
      (childVerdict table sessionId (w.children sessionId), w) := by
  simp only [Home.runs, reapChildGroup, readChild, run_bind, run_perform, run_done, Home.answer]
  cases w.children sessionId with
  | missing | malformed | undecodable => rfl
  | record record =>
    dsimp only [childVerdict]
    cases childIdentity sessionId record with
    | error obstacle => rfl
    | ok identity =>
      obtain ⟨pid, pgid, fingerprint⟩ := identity
      simp only [startFingerprint, run_bind, run_perform, run_done, Home.answer]
      cases staleFingerprint (table.startFingerprint pid) fingerprint with
      | true => rfl
      | false =>
        simp only [Bool.false_eq_true, if_false]
        change Home.runs table clock _ w = _
        rw [runs_bind, runs_signalGroup, groupVerdict]
        -- Each signal either goes on or has the last word.
        rcases signalVerdict (.killpgSigtermFailed pgid) (table.killpg pgid .term) with
          x | (_ | obstacle)
        · rfl
        · dsimp only
          rw [runs_bind, runs_signalGroup]
          rcases signalVerdict (.killpgSigkillFailed pgid) (table.killpg pgid .kill) with
            x | (_ | obstacle)
          · rfl
          · exact runs_verifyGone
          · rfl
        · rfl

/-- What a visit says whose steps leave no trace: the first verdict there is. -/
def visitVerdict {α : Type} (f : α → Except Raised (Option Obstacle)) :
    List α → Except Raised (Option Obstacle)
  | [] => .ok none
  | a :: rest => orElse (f a) (visitVerdict f rest)

theorem orElse_none {first second : Except Raised (Option Obstacle)} :
    orElse first second = .ok none ↔ first = .ok none ∧ second = .ok none := by
  unfold orElse
  split
  · simp
  · rename_i verdict
    exact ⟨fun same => absurd same verdict, fun both => both.1⟩

theorem visitVerdict_none {α : Type} {f : α → Except Raised (Option Obstacle)} {items : List α} :
    visitVerdict f items = .ok none ↔ ∀ a ∈ items, f a = .ok none := by
  induction items with
  | nil => simp [visitVerdict]
  | cons a rest ih => simp [visitVerdict, orElse_none, ih]

theorem runs_visit {α : Type} {step : α → Routine (Option Obstacle)}
    {f : α → Except Raised (Option Obstacle)}
    (each : ∀ a, Home.runs table clock (step a) w = (f a, w)) (items : List α) :
    Home.runs table clock (Prog.visit step items) w = (visitVerdict f items, w) := by
  induction items with
  | nil => rfl
  | cons a rest ih => exact runs_otherwise (each a) ih

theorem runs_outstandingOf {α : Type} (f : Except Obstacle (List StartRow) → Routine α) :
    Home.runs table clock (outstandingOf e >>= f) w =
      Home.runs table clock (f (.ok (w.db.listStartsForEpoch e))) w := rfl

theorem runs_reapChildGroups :
    Home.runs table clock (reapChildGroups e) w =
      (visitVerdict (fun start : StartRow =>
        childVerdict table start.sessionId (w.children start.sessionId))
          (w.db.listStartsForEpoch e), w) := by
  rw [reapChildGroups, runs_outstandingOf]
  exact runs_visit (fun start : StartRow => runs_reapChildGroup start.sessionId) _

/-! ### The lost sessions -/

def lostResult (endedAt : ℚ) : TerminalResult where
  terminalKind := "generation_lost"
  summary := "generation lost (daemon crashed)"
  endedAt := .finite endedAt

theorem runs_publishLost (table : Processes) (clock : ℕ → ℚ) (backed : SessionsBacked w.db) {start : StartRow}
    (outstanding : start ∈ w.db.listStartsForEpoch e) :
    ∃ w' seq, Home.runs table clock (publishLost start) w = (.ok none, w') ∧
      w'.children = w.children ∧
      Publishes w.db w'.db start ((lostResult (clock w.reads)).receipt start.sessionId
        (clock w.reads) (clock (w.reads + 1)) seq) := by
  have ended : (lostResult (clock w.reads)).endedAt = .finite (clock w.reads) := rfl
  obtain ⟨db', seq, done, publishes⟩ :=
    putTerminal_outstanding backed outstanding ended (clock (w.reads + 1))
  have applied : (Store.Call.putTerminal start.sessionId (lostResult (clock w.reads))
      (.finite (clock (w.reads + 1)))).apply w.db = .ok db' := done
  refine ⟨{ db := db', children := w.children, reads := w.reads + 2 }, seq, ?_, rfl, publishes⟩
  have ran : Home.runs table clock (publishLost start) w =
      Home.runs table clock ((do
        write .reconciling (.putTerminal start.sessionId (lostResult (clock w.reads))
          (.finite (clock (w.reads + 1))))
        pure none : Routine (Option Obstacle)).rescue fun raised =>
          pure (some (.generationLostFailed start.sessionId raised)))
        { w with reads := w.reads + 2 } := rfl
  rw [ran]
  simp only [Home.runs, write, run, bind, Prog.bind, Prog.rescue, Home.answer, applied]
  rfl

/-- Receipts were written for the sessions of a list, all of one epoch, and for no others. -/
structure Lost (e : String) (lost : List StartRow) (db db' : Db) : Prop where
  epochs : db'.epochs = db.epochs
  starts : db'.starts = db.starts
  sessions : db'.sessions = db.sessions
  generations : db'.generations = db.generations
  progress : ∀ e', e' ≠ e → db'.progressOf e' = db.progressOf e'
  receipts : ∀ start ∈ lost, ∃ row, db'.terminal.find? start.sessionId = some row ∧
    row.terminalKind = "generation_lost"
  others : ∀ sid, sid ∉ lost.map StartRow.sessionId →
    db'.terminal.find? sid = db.terminal.find? sid
  next : (db'.progressOf e).nextTerminalSeq = (db.progressOf e).nextTerminalSeq + lost.length
  highWater : db'.getGenerationPersistedHighWater e =
    if lost = [] then db.getGenerationPersistedHighWater e
    else max (db.getGenerationPersistedHighWater e)
      ((db.progressOf e).nextTerminalSeq + lost.length - 1)

theorem runs_publishAll (table : Processes) (clock : ℕ → ℚ) {lost : List StartRow} (backed : SessionsBacked w.db)
    (outstanding : ∀ start ∈ lost, start ∈ w.db.listStartsForEpoch e)
    (distinct : (lost.map StartRow.sessionId).Nodup) :
    ∃ w', Home.runs table clock (Prog.visit publishLost lost) w = (.ok none, w') ∧
      w'.children = w.children ∧ Lost e lost w.db w'.db := by
  induction lost generalizing w with
  | nil =>
    refine ⟨w, rfl, rfl, rfl, rfl, rfl, rfl, fun _ _ => rfl, ?_, fun _ _ => rfl, rfl, rfl⟩
    intro start member
    cases member
  | cons start rest ih =>
    have here := outstanding start (by simp)
    obtain ⟨w₁, seq, ran, kept, publishes⟩ := runs_publishLost table clock backed here
    rw [List.map_cons, List.nodup_cons] at distinct
    have later : ∀ other ∈ rest, other ∈ w₁.db.listStartsForEpoch e := by
      intro other member
      refine publishes.listStarts (outstanding other (List.mem_cons_of_mem start member)) ?_
      intro (same : start.sessionId = other.sessionId)
      exact distinct.1 (same ▸ List.mem_map_of_mem member)
    obtain ⟨w₂, rest_ran, rest_kept, after⟩ := ih (publishes.backed backed) later distinct.2
    obtain ⟨found, bound, -, fresh⟩ := mem_listStarts.mp here
    have owner : start.generationEpoch.getD start.sessionId = e := by rw [bound]; rfl
    have numbered : seq = (w.db.progressOf e).nextTerminalSeq := owner ▸ publishes.numbered
    have stepped : (w₁.db.progressOf e).nextTerminalSeq =
        (w.db.progressOf e).nextTerminalSeq + 1 := by
      rw [publishes.progress, if_pos owner]
    have high : w₁.db.getGenerationPersistedHighWater e =
        max (w.db.getGenerationPersistedHighWater e) (w.db.progressOf e).nextTerminalSeq := by
      rw [publishes.highWater found bound]
      exact congrArg _ numbered
    refine ⟨w₂, ?_, rest_kept.trans kept, after.epochs.trans publishes.epochs,
      after.starts.trans publishes.starts, after.sessions.trans publishes.sessions,
      after.generations.trans publishes.generations, ?_, ?_, ?_, ?_, ?_⟩
    · simp only [Home.runs, Prog.visit, Prog.otherwise, run_bind] at ran rest_ran ⊢
      rw [ran]
      exact rest_ran
    · intro e' apart
      rw [after.progress e' apart, publishes.progress, if_neg]
      exact fun same => apart (same.symm.trans owner)
    · intro other member
      rcases List.mem_cons.mp member with rfl | member
      · -- Its receipt is not touched by the rest.
        have published := Table.find?_insert publishes.terminal other.sessionId
        rw [if_pos (by rfl)] at published
        exact ⟨_, (after.others _ distinct.1).trans published, rfl⟩
      · exact after.receipts other member
    · intro sid apart
      rw [List.map_cons, List.mem_cons, not_or] at apart
      rw [after.others sid apart.2, Table.find?_insert publishes.terminal]
      exact if_neg fun same => apart.1 same.symm
    · rw [after.next, stepped, List.length_cons]
      omega
    · rw [after.highWater, high, stepped, List.length_cons]
      simp only [reduceCtorEq, if_false]
      split
      · rename_i empty
        subst empty
        simp
      · have some : 0 < rest.length := List.length_pos_of_ne_nil ‹_›
        omega

/-! ### When it succeeds -/

/-- The number that an epoch ends with when its outstanding sessions are lost. -/
def lostHighWater (db : Db) (e : String) : ℕ :=
  if db.listStartsForEpoch e = [] then db.getGenerationPersistedHighWater e
  else max (db.getGenerationPersistedHighWater e)
    ((db.progressOf e).nextTerminalSeq + (db.listStartsForEpoch e).length - 1)

/-- The epoch was reconciled: it is certified, every session that had no receipt has one that says
it was lost, and no other receipt was touched. -/
structure Reconciled (e : String) (w : Home) (outcome : Except Raised (Option Obstacle) × Home) :
    Prop where
  succeeds : outcome.1 = .ok none
  certified : ∃ row, outcome.2.db.findEpoch e = some row ∧ row.retirementState = .certified
  lost : ∀ start ∈ w.db.listStartsForEpoch e, ∃ row,
    outcome.2.db.terminal.find? start.sessionId = some row ∧ row.terminalKind = "generation_lost"
  others : ∀ sid, (∀ start ∈ w.db.listStartsForEpoch e, start.sessionId ≠ sid) →
    outcome.2.db.terminal.find? sid = w.db.terminal.find? sid

/-- What the crash left behind tells how the epoch ended: the rows of its generation can be read,
its daemon was recorded, and so was the agent of every session without a receipt. -/
structure Evident (at_ : Surroundings) (g e : String) (w : Home) : Prop where
  readable : ∃ epochs, w.db.listEpochsStrict g = .ok epochs
  promoted : ∃ row ep pid, w.db.findEpoch e = some row ∧ row.generationId = g ∧
    row.decode = some ep ∧ incarnationPid at_ ep = .ok pid
  recorded : ∀ start ∈ w.db.listStartsForEpoch e, ∃ record identity,
    w.children start.sessionId = .record record ∧
      childIdentity start.sessionId record = .ok identity

/-- No other process has taken the number of the daemon or of an agent. -/
structure Unmistaken (at_ : Surroundings) (table : Processes) (e : String) (w : Home) : Prop where
  daemon : ∀ row ep pid, w.db.findEpoch e = some row → row.decode = some ep →
    incarnationPid at_ ep = .ok pid → table.alive pid = false
  leaders : ∀ start ∈ w.db.listStartsForEpoch e, ∀ record pid pgid fingerprint,
    w.children start.sessionId = .record record →
    childIdentity start.sessionId record = .ok (pid, pgid, fingerprint) →
      staleFingerprint (table.startFingerprint pid) fingerprint = false

theorem childVerdict_none {sessionId : String} {file : ChildFile} :
    childVerdict table sessionId file = .ok none ↔ ∃ record pid pgid fingerprint,
      file = .record record ∧ childIdentity sessionId record = .ok (pid, pgid, fingerprint) ∧
        staleFingerprint (table.startFingerprint pid) fingerprint = false ∧
          groupVerdict table pgid = .ok none := by
  cases file with
  | missing => simp [childVerdict]
  | malformed => simp [childVerdict]
  | undecodable => simp [childVerdict]
  | record record =>
    cases read : childIdentity sessionId record with
    | error obstacle => simp [childVerdict, read]
    | ok identity =>
      obtain ⟨pid, pgid, fingerprint⟩ := identity
      cases stale : staleFingerprint (table.startFingerprint pid) fingerprint <;>
        simp [childVerdict, read, stale]

/-- The process groups of the agents of the sessions without a receipt are gone. -/
def GroupsGone (table : Processes) (e : String) (w : Home) : Prop :=
  ∀ start ∈ w.db.listStartsForEpoch e, ∀ record pid pgid fingerprint,
    w.children start.sessionId = .record record →
    childIdentity start.sessionId record = .ok (pid, pgid, fingerprint) →
      ∀ signal, table.killpg pgid signal = .processLookupError

theorem groupVerdict_gone {pgid : ℤ}
    (gone : ∀ signal, table.killpg pgid signal = .processLookupError) :
    groupVerdict table pgid = .ok none := by
  simp only [groupVerdict, gone]
  rfl

theorem setEpochRetirement_fits {db : Db} {row : EpochRow} (state : RetirementState)
    (certificate : CertificateArg) {cell : TextCell} (high : Option ℕ) (named : e ≠ "")
    (found : db.findEpoch e = some row) (bound : Db.boundCertificate state certificate = .ok cell)
    (fits : ((high.getD 0 : ℕ) : ℤ) ≤ maxInteger) :
    (Store.Call.setEpochRetirement e state certificate (high.map fun n : ℕ => (n : ℤ))).apply db =
      .ok (db.setEpochRow (Db.retired row state cell high)) := by
  refine Db.setEpochRetirement_ok.mpr ⟨named, high, cell, row, ?_, bound, ?_, found, rfl⟩
  · cases high with
    | none => rfl
    | some n => simp [Db.checkHighWater, require, bind, Except.bind, pure, Except.pure]
  · rintro ⟨-, exceeded⟩
    cases high with
    | none => simp [maxInteger] at exceeded
    | some n =>
      simp only [Option.getD_some, Option.map_some] at fits exceeded
      omega

theorem findEpoch_retired {db : Db} {row : EpochRow} {state : RetirementState} {cell : TextCell}
    {high : Option ℕ} (found : db.findEpoch e = some row) :
    (db.setEpochRow (Db.retired row state cell high)).findEpoch e =
      some (Db.retired row state cell high) := by
  have named := Db.generationEpoch_of_findEpoch found
  have key : Keyed.key (Db.retired row state cell high) = e := by
    cases state <;> exact named
  simp only [Db.findEpoch, Db.setEpochRow, Table.find?_update, key, if_true] at found ⊢
  rw [found]
  rfl

/-- Admission was closed, and nothing else changed. -/
structure Closed (e : String) (w w' : Home) : Prop where
  children : w'.children = w.children
  starts : w'.db.starts = w.db.starts
  sessions : w'.db.sessions = w.db.sessions
  terminal : w'.db.terminal = w.db.terminal
  progress : w'.db.progress = w.db.progress
  generations : w'.db.generations = w.db.generations
  epochs : ∀ e', e' ≠ e → w'.db.findEpoch e' = w.db.findEpoch e'
  found : ∀ row, w.db.findEpoch e = some row → ∃ row', w'.db.findEpoch e = some row' ∧
    row'.generationId = row.generationId ∧ row'.incarnationMeta = row.incarnationMeta

theorem Closed.listStarts (closed : Closed e w w') :
    w'.db.listStartsForEpoch e = w.db.listStartsForEpoch e := by
  simp only [Db.listStartsForEpoch, closed.starts, closed.sessions, closed.terminal]

theorem Closed.backed (closed : Closed e w w') (backed : SessionsBacked w.db) :
    SessionsBacked w'.db := by
  simpa only [SessionsBacked, Db.findStart, closed.starts, closed.sessions] using backed

theorem Closed.lostHighWater (closed : Closed e w w') :
    lostHighWater w'.db e = Router.lostHighWater w.db e := by
  simp only [Router.lostHighWater, closed.listStarts, Db.getGenerationPersistedHighWater,
    Db.progressOf, Db.findStart, closed.starts, closed.terminal, closed.progress]

theorem findEpoch_others {db : Db} {row : EpochRow} {state : RetirementState} {cell : TextCell}
    {high : Option ℕ} (found : db.findEpoch e = some row) {e' : String} (apart : e' ≠ e) :
    (db.setEpochRow (Db.retired row state cell high)).findEpoch e' = db.findEpoch e' := by
  have named := Db.generationEpoch_of_findEpoch found
  refine Table.find?_update_ne ?_
  cases state <;> exact fun same => apart (same.symm.trans named)

theorem runs_closeAdmission (table : Processes) (clock : ℕ → ℚ) {ep : EpochRecord} {row : EpochRow}
    (named : e ≠ "") (found : w.db.findEpoch e = some row) (same : ep.generationEpoch = e)
    (site : Site) :
    ∃ w', Home.runs table clock (closeAdmission site ep) w = (.ok (), w') ∧ Closed e w w' := by
  unfold closeAdmission
  by_cases opened : ep.retirementState = .opened
  · have applied := setEpochRetirement_fits .quiescing .none none named found rfl
      (by simp [maxInteger])
    rw [Option.map_none] at applied
    rw [if_pos opened, same, runs_write, applied]
    refine ⟨_, rfl, rfl, rfl, rfl, rfl, rfl, rfl, fun _ apart => findEpoch_others found apart, ?_⟩
    intro row' found'
    obtain rfl : row = row' := Option.some.inj (found.symm.trans found')
    exact ⟨_, findEpoch_retired found, rfl, rfl⟩
  · rw [if_neg opened]
    exact ⟨w, rfl, rfl, rfl, rfl, rfl, rfl, rfl, fun _ _ => rfl,
      fun row found => ⟨row, found, rfl, rfl⟩⟩

/-- What a reconciliation that goes through leaves: the epoch certified under a certificate that can
be read back, its lost sessions with their receipts, and everything else as it was. -/
structure ReconcilesTo (e : String) (w w' : Home) : Prop where
  children : w'.children = w.children
  starts : w'.db.starts = w.db.starts
  sessions : w'.db.sessions = w.db.sessions
  generations : w'.db.generations = w.db.generations
  epochs : ∀ e', e' ≠ e → w'.db.findEpoch e' = w.db.findEpoch e'
  progress : ∀ e', e' ≠ e → w'.db.progressOf e' = w.db.progressOf e'
  certified : ∀ row, w.db.findEpoch e = some row → ∃ row', w'.db.findEpoch e = some row' ∧
    row'.generationId = row.generationId ∧ row'.retirementState = .certified ∧
    row'.incarnationMeta = row.incarnationMeta ∧ row'.certificate.read.isSome
  lost : ∀ start ∈ w.db.listStartsForEpoch e, ∃ row,
    w'.db.terminal.find? start.sessionId = some row ∧ row.terminalKind = "generation_lost"
  others : ∀ sid, (∀ start ∈ w.db.listStartsForEpoch e, start.sessionId ≠ sid) →
    w'.db.terminal.find? sid = w.db.terminal.find? sid

/-- Every child of the epoch is accounted for. -/
def AccountedFor (table : Processes) (e : String) (w : Home) : Prop :=
  ∀ start ∈ w.db.listStartsForEpoch e,
    childVerdict table start.sessionId (w.children start.sessionId) = .ok none

theorem filled_append {head tail : String} (filled : head ≠ "") : head ++ tail ≠ "" := by
  intro empty
  have blank : head.toList ++ tail.toList = [] := by
    simpa [String.toList_append] using congrArg String.toList empty
  exact filled (String.toList_inj.mp ((List.append_eq_nil_iff.mp blank).1.trans rfl))

/-- The certificate of a reconciliation can be read back. -/
theorem read_certificate (g e : String) :
    (TextCell.text s!"crash-reconcile:{g}:{e}").read.isSome := by
  have filled : s!"crash-reconcile:{g}:{e}" ≠ "" :=
    filled_append (filled_append (filled_append (by decide)))
  simp only [TextCell.read]
  rw [if_neg filled]
  rfl

/-- A column beyond its range refuses the certification. -/
theorem setEpochRetirement_over {db : Db} {certificate : String} {high : ℕ} (named : e ≠ "")
    (exceeded : ¬ (high : ℤ) ≤ maxInteger) :
    (Store.Call.setEpochRetirement e .certified (.text certificate) (some (high : ℤ))).apply db =
      .error .overflowError := by
  have beyond : maxInteger < (high : ℤ) := not_le.mp exceeded
  simp [Call.apply, Db.setEpochRetirement, requireText, require, named, Db.checkHighWater,
    Db.boundCertificate, CertificateArg.bind, beyond, bind, Except.bind, pure, Except.pure]

/-- A dead epoch is certified when every child is accounted for and the column takes the number. -/
theorem runs_reconcileDead_ok (clock : ℕ → ℚ) {ep : EpochRecord} {row : EpochRow}
    (backed : SessionsBacked w.db) (named : e ≠ "") (found : w.db.findEpoch e = some row)
    (same : ep.generationEpoch = e) (accounted : AccountedFor table e w)
    (fits : (lostHighWater w.db e : ℤ) ≤ maxInteger) (g : String) :
    ∃ w', Home.runs table clock (reconcileDead g ep) w = (.ok none, w') ∧ ReconcilesTo e w w' := by
  obtain ⟨w₁, ran, closed⟩ := runs_closeAdmission table clock named found same .reconciling
  subst same
  obtain ⟨w₂, published, kept, lost⟩ := runs_publishAll table clock (closed.backed backed)
    (fun start member => closed.listStarts.symm ▸ member)
    (listStarts_distinct w.db ep.generationEpoch)
  have highWater : w₂.db.getGenerationPersistedHighWater ep.generationEpoch =
      lostHighWater w.db ep.generationEpoch := by
    rw [lost.highWater, ← closed.lostHighWater, Router.lostHighWater, closed.listStarts]
  obtain ⟨row', here, owner, incarnation⟩ := closed.found row found
  have still : w₂.db.findEpoch ep.generationEpoch = some row' := by
    rw [Db.findEpoch, lost.epochs]
    exact here
  have applied := setEpochRetirement_fits .certified
    (.text s!"crash-reconcile:{g}:{ep.generationEpoch}")
    (some (lostHighWater w.db ep.generationEpoch)) named still rfl fits
  rw [Option.map_some] at applied
  refine ⟨{ w₂ with db := w₂.db.setEpochRow (Db.retired row' .certified
    (.text s!"crash-reconcile:{g}:{ep.generationEpoch}")
    (some (lostHighWater w.db ep.generationEpoch))) }, ?_, ?_⟩
  · rw [reconcileDead, runs_bind, ran]
    dsimp only
    rw [runs_bind, runs_reapChildGroups, closed.listStarts, closed.children,
      visitVerdict_none.mpr accounted]
    dsimp only
    rw [runs_outstandingOf, closed.listStarts]
    dsimp only
    rw [runs_bind, published]
    dsimp only
    rw [runs_ask]
    simp only [Db.answer, highWater]
    rw [runs_bind, runs_write, applied]
    rfl
  · refine ⟨kept.trans closed.children, lost.starts.trans closed.starts,
      lost.sessions.trans closed.sessions, lost.generations.trans closed.generations, ?_, ?_, ?_,
      lost.receipts, ?_⟩
    · intro e' apart
      refine (findEpoch_others still apart).trans ?_
      rw [Db.findEpoch, lost.epochs]
      exact closed.epochs e' apart
    · intro e' apart
      refine (lost.progress e' apart).trans ?_
      rw [Db.progressOf, Db.progressOf, closed.progress]
    · intro first found'
      obtain rfl : row = first := Option.some.inj (found.symm.trans found')
      refine ⟨_, findEpoch_retired still, owner, rfl, incarnation, ?_⟩
      exact read_certificate g ep.generationEpoch
    · intro sid apart
      refine (lost.others sid ?_).trans (by rw [closed.terminal])
      rw [List.mem_map]
      rintro ⟨start, member, same⟩
      exact apart start member same

theorem ReconcilesTo.reconciled {row : EpochRow} (reconciles : ReconcilesTo e w w')
    (found : w.db.findEpoch e = some row) : Reconciled e w (.ok none, w') := by
  obtain ⟨row', found', -, certified, -⟩ := reconciles.certified row found
  exact ⟨rfl, ⟨row', found', certified⟩, reconciles.lost, reconciles.others⟩

theorem runs_reconcileDead {ep : EpochRecord} {row : EpochRow} (backed : SessionsBacked w.db)
    (named : e ≠ "") (found : w.db.findEpoch e = some row) (same : ep.generationEpoch = e) :
    (Home.runs table clock (reconcileDead g ep) w).1 = .ok none ↔
      AccountedFor table e w ∧ (lostHighWater w.db e : ℤ) ≤ maxInteger := by
  constructor
  · intro ended
    obtain ⟨w₁, ran, closed⟩ := runs_closeAdmission table clock named found same .reconciling
    subst same
    rw [reconcileDead, runs_bind, ran] at ended
    dsimp only at ended
    rw [runs_bind, runs_reapChildGroups, closed.listStarts, closed.children] at ended
    have accounted : AccountedFor table ep.generationEpoch w := by
      refine visitVerdict_none.mp ?_
      rcases stands : visitVerdict (fun start : StartRow =>
          childVerdict table start.sessionId (w.children start.sessionId))
          (w.db.listStartsForEpoch ep.generationEpoch) with x | (_ | obstacle)
      · rw [stands] at ended
        cases ended
      · rfl
      · rw [stands] at ended
        cases ended
    refine ⟨accounted, ?_⟩
    by_contra exceeded
    obtain ⟨w₂, published, -, lost⟩ := runs_publishAll table clock (closed.backed backed)
      (fun start member => closed.listStarts.symm ▸ member)
      (listStarts_distinct w.db ep.generationEpoch)
    have highWater : w₂.db.getGenerationPersistedHighWater ep.generationEpoch =
        lostHighWater w.db ep.generationEpoch := by
      rw [lost.highWater, ← closed.lostHighWater, Router.lostHighWater, closed.listStarts]
    rw [visitVerdict_none.mpr accounted] at ended
    dsimp only at ended
    rw [runs_outstandingOf, closed.listStarts] at ended
    dsimp only at ended
    rw [runs_bind, published] at ended
    dsimp only at ended
    rw [runs_ask] at ended
    simp only [Db.answer, highWater] at ended
    rw [runs_bind, runs_write, setEpochRetirement_over named exceeded] at ended
    cases ended
  · rintro ⟨accounted, fits⟩
    obtain ⟨w', ran, reconciles⟩ :=
      runs_reconcileDead_ok clock backed named found same accounted fits g
    rw [ran]

/-- A strict listing that goes through shows every row. -/
theorem find_listed {db : Db} {epochs : List EpochRecord} {row : EpochRow}
    (listed : db.listEpochsStrict g = .ok epochs) (found : db.findEpoch e = some row)
    (owned : row.generationId = g) :
    ∃ ep, row.decode = some ep ∧ epochs.find? (·.generationEpoch = e) = some ep := by
  have member := Table.mem_of_find? found
  have named := Db.generationEpoch_of_findEpoch found
  have read := listed
  simp only [Db.listEpochsStrict, bind_ok, demand_ok] at read
  obtain ⟨-, -, decoded⟩ := read
  obtain ⟨ep, here, decodes⟩ := shown_of_mapM decoded (mem_epochRows.mpr ⟨member, owned⟩)
  cases hit : epochs.find? (·.generationEpoch = e) with
  | none =>
    rw [List.find?_eq_none] at hit
    exact absurd ((decode_eq_some decodes).1.trans named) (by simpa using hit ep here)
  | some other =>
    -- The name stands for one row only.
    obtain ⟨row', there, -, decodes'⟩ := row_of_listed listed (List.mem_of_find?_eq_some hit)
    have same : other.generationEpoch = e := by simpa using List.find?_some hit
    have key : row'.generationEpoch = row.generationEpoch :=
      (decode_eq_some decodes').1.symm.trans (same.trans named.symm)
    obtain rfl := Table.eq_of_key there member key
    exact ⟨other, decodes', rfl⟩

theorem runs_crashReconcile {epochs : List EpochRecord} {ep : EpochRecord}
    (listed : w.db.listEpochsStrict g = .ok epochs)
    (hit : epochs.find? (·.generationEpoch = e) = some ep) (dead : ep.processState = .dead) :
    Home.runs table clock (crashReconcileEpoch at_ g e) w =
      match incarnationPid at_ ep with
      | .error obstacle => (.ok (some obstacle), w)
      | .ok pid =>
        if table.alive pid then (.ok (some .daemonStillAlive), w)
        else Home.runs table clock (reconcileDead g ep) w := by
  rw [crashReconcileEpoch, runs_ask]
  simp only [Db.answer, listed, hit, dead, ne_eq, not_true_eq_false, if_false]
  cases incarnationPid at_ ep with
  | error obstacle => rfl
  | ok pid =>
    simp only [Home.runs, pidAlive, run_bind, run_perform, run_done, Home.answer]
    cases table.alive pid <;> rfl

/-- What it takes to reconcile a dead epoch. -/
structure Reconcilable (at_ : Surroundings) (table : Processes) (g : String) (ep : EpochRecord)
    (w : Home) : Prop where
  readable : ∃ epochs, w.db.listEpochsStrict g = .ok epochs
  gone : ∃ pid, incarnationPid at_ ep = .ok pid ∧ table.alive pid = false
  accounted : AccountedFor table ep.generationEpoch w
  fits : (lostHighWater w.db ep.generationEpoch : ℤ) ≤ maxInteger

section Dead

variable {row : EpochRow} {ep : EpochRecord} (shaped : EpochsShaped w.db)
  (backed : SessionsBacked w.db) (found : w.db.findEpoch e = some row)
  (owned : row.generationId = g) (decodes : row.decode = some ep) (dead : row.processState = .dead)

include shaped backed found owned decodes dead

theorem runs_crashReconcile_iff :
    (Home.runs table clock (crashReconcileEpoch at_ g e) w).1 = .ok none ↔
      Reconcilable at_ table g ep w := by
  have key := Db.generationEpoch_of_findEpoch found
  have named : e ≠ "" := key ▸ (shaped row (Table.mem_of_find? found)).1
  obtain ⟨same, -, process, -⟩ := decode_eq_some decodes
  rw [key] at same
  cases listed : w.db.listEpochsStrict g with
  | error x =>
    refine iff_of_false ?_ ?_
    · rw [crashReconcileEpoch, runs_ask]
      simp only [Db.answer, listed]
      rintro ⟨⟩
    · rintro ⟨⟨epochs, read⟩, -⟩
      rw [listed] at read
      cases read
  | ok epochs =>
    obtain ⟨ep', decodes', hit⟩ := find_listed listed found owned
    obtain rfl : ep = ep' := Option.some.inj (decodes.symm.trans decodes')
    rw [runs_crashReconcile listed hit (process.trans dead)]
    cases recorded : incarnationPid at_ ep with
    | error obstacle =>
      refine iff_of_false (by rintro ⟨⟩) ?_
      rintro ⟨-, ⟨pid, recorded', -⟩, -⟩
      rw [recorded] at recorded'
      cases recorded'
    | ok pid =>
      dsimp only
      cases alive : table.alive pid with
      | true =>
        refine iff_of_false (by rintro ⟨⟩) ?_
        rintro ⟨-, ⟨pid', recorded', gone⟩, -⟩
        rw [recorded] at recorded'
        cases recorded'
        rw [alive] at gone
        cases gone
      | false =>
        rw [if_neg Bool.false_ne_true, runs_reconcileDead backed named found same]
        constructor
        · rintro ⟨accounted, fits⟩
          exact ⟨⟨epochs, listed⟩, ⟨pid, recorded, alive⟩, same.symm ▸ accounted,
            same.symm ▸ fits⟩
        · rintro ⟨-, -, accounted, fits⟩
          exact ⟨same ▸ accounted, same ▸ fits⟩

theorem runs_crashReconcile_ok (clock : ℕ → ℚ) (reconcilable : Reconcilable at_ table g ep w) :
    ∃ w', Home.runs table clock (crashReconcileEpoch at_ g e) w = (.ok none, w') ∧
      ReconcilesTo e w w' := by
  have key := Db.generationEpoch_of_findEpoch found
  have named : e ≠ "" := key ▸ (shaped row (Table.mem_of_find? found)).1
  obtain ⟨same, -, process, -⟩ := decode_eq_some decodes
  rw [key] at same
  obtain ⟨epochs, listed⟩ := reconcilable.readable
  obtain ⟨ep', decodes', hit⟩ := find_listed listed found owned
  obtain rfl : ep = ep' := Option.some.inj (decodes.symm.trans decodes')
  obtain ⟨pid, recorded, alive⟩ := reconcilable.gone
  rw [runs_crashReconcile listed hit (process.trans dead), recorded]
  dsimp only
  rw [alive, if_neg Bool.false_ne_true]
  exact runs_reconcileDead_ok clock backed named found same (same ▸ reconcilable.accounted)
    (same ▸ reconcilable.fits) g

/-- Once the daemon and its agents are gone and the row of the epoch is dead, reconciliation
succeeds exactly when the crash left the evidence and no other process has one of the numbers. -/
theorem reconciled_iff_reconcilable :
    Reconciled e w (Home.runs table clock (crashReconcileEpoch at_ g e) w) ↔
      Reconcilable at_ table g ep w := by
  constructor
  · intro reconciled
    exact (runs_crashReconcile_iff shaped backed found owned decodes dead).mp reconciled.succeeds
  · intro reconcilable
    obtain ⟨w', ran, reconciles⟩ :=
      runs_crashReconcile_ok shaped backed found owned decodes dead clock reconcilable
    rw [ran]
    exact reconciles.reconciled found

end Dead

theorem reconciled_iff {row : EpochRow} (shaped : EpochsShaped w.db) (backed : SessionsBacked w.db)
    (found : w.db.findEpoch e = some row) (owned : row.generationId = g)
    (dead : row.processState = .dead) (gone : GroupsGone table e w) :
    Reconciled e w (Home.runs table clock (crashReconcileEpoch at_ g e) w) ↔
      Evident at_ g e w ∧ Unmistaken at_ table e w ∧ (lostHighWater w.db e : ℤ) ≤ maxInteger := by
  cases decodes : row.decode with
  | none =>
    -- The strict listing stops at the row.
    refine iff_of_false (fun reconciled => ?_) ?_
    · have ended := reconciled.succeeds
      rw [crashReconcileEpoch, runs_ask] at ended
      cases listed : w.db.listEpochsStrict g with
      | error x =>
        simp only [Db.answer, listed] at ended
        cases ended
      | ok epochs =>
        obtain ⟨ep, decodes', -⟩ := find_listed listed found owned
        rw [decodes] at decodes'
        cases decodes'
    · rintro ⟨⟨-, ⟨row', ep, pid, found', -, decodes', -⟩, -⟩, -⟩
      obtain rfl : row = row' := Option.some.inj (found.symm.trans found')
      rw [decodes] at decodes'
      cases decodes'
  | some ep =>
    have same : ep.generationEpoch = e :=
      (decode_eq_some decodes).1.trans (Db.generationEpoch_of_findEpoch found)
    rw [reconciled_iff_reconcilable shaped backed found owned decodes dead]
    constructor
    · rintro ⟨readable, ⟨pid, recorded, alive⟩, accounted, fits⟩
      rw [same] at accounted fits
      refine ⟨⟨readable, ⟨row, ep, pid, found, owned, decodes, recorded⟩, ?_⟩, ⟨?_, ?_⟩, fits⟩
      · intro start member
        obtain ⟨record, pid, pgid, fingerprint, file, read, -⟩ :=
          childVerdict_none.mp (accounted start member)
        exact ⟨record, _, file, read⟩
      · intro row' ep' pid' found' decodes' recorded'
        obtain rfl : row = row' := Option.some.inj (found.symm.trans found')
        obtain rfl : ep = ep' := Option.some.inj (decodes.symm.trans decodes')
        rw [recorded] at recorded'
        cases recorded'
        exact alive
      · intro start member record' pid' pgid' fingerprint' file' read'
        obtain ⟨record, pid, pgid, fingerprint, file, read, stale, -⟩ :=
          childVerdict_none.mp (accounted start member)
        rw [file] at file'
        cases file'
        rw [read] at read'
        cases read'
        exact stale
    · rintro ⟨evident, unmistaken, fits⟩
      obtain ⟨row', ep', pid, found', -, decodes', recorded⟩ := evident.promoted
      obtain rfl : row = row' := Option.some.inj (found.symm.trans found')
      obtain rfl : ep = ep' := Option.some.inj (decodes.symm.trans decodes')
      refine ⟨evident.readable, ⟨pid, recorded, unmistaken.daemon row ep pid found decodes recorded⟩,
        ?_, same.symm ▸ fits⟩
      rw [same]
      intro start member
      obtain ⟨record, ⟨pid, pgid, fingerprint⟩, file, read⟩ := evident.recorded start member
      exact childVerdict_none.mpr ⟨record, pid, pgid, fingerprint, file, read,
        unmistaken.leaders start member record pid pgid fingerprint file read,
        groupVerdict_gone (gone start member record pid pgid fingerprint file read)⟩

end Nelix.Router
