import Nelix.Router.OperatorCrash
import Nelix.Router.OperatorEffects
import Nelix.Router.OperatorSystem

/-!
# Retire by itself

A call of `retire` with nobody else about: the registry holds one handle at most, daemons listen on
transports and answer the operator's routes, and the home is as the call leaves it.

## Main results

`Awaiting.keeps`: an epoch that serves uncertified stays so unless it is certified by name.

`visit_passes`: exactly when phase 1 passes over a list of epochs that the pointer does not name.
-/
namespace Nelix.Router

open Contracts Core Store Prog Routine

/-! ### Daemons -/

/-- A daemon as its operator routes show it. -/
structure DaemonState where
  epoch : String
  liveSessions : ℕ
  obligations : ℕ
  terminalPending : ℕ
  inFlight : ℕ
  deriving DecidableEq

namespace DaemonState

/-- Nothing is live, owed, pending or in flight. -/
def idle (d : DaemonState) : Prop :=
  d.liveSessions = 0 ∧ d.obligations = 0 ∧ d.terminalPending = 0 ∧ d.inFlight = 0

/-- The barrier of `certify_epoch`. -/
def settles (d : DaemonState) : Prop :=
  d.liveSessions = 0 ∧ d.obligations = 0 ∧ d.inFlight = 0

instance (d : DaemonState) : Decidable d.idle := by unfold idle; infer_instance

instance (d : DaemonState) : Decidable d.settles := by unfold settles; infer_instance

/-- `SessionManager.quiescence_status` -/
def counters (d : DaemonState) : Json :=
  .object
    [("live_sessions", .int d.liveSessions), ("outstanding_obligations", .int d.obligations),
      ("terminal_pending", .int d.terminalPending), ("in_flight_admissions", .int d.inFlight)]

/-- A write of the daemon; one that raises breaks the connection. -/
def writes (call : Call) (reply : ℕ × Json) (w : Home) : Outcome (ℕ × Json) × Home :=
  match call.apply w.db with
  | .ok db' => (.ok reply, { w with db := db' })
  | .error _ => (refuse .generationUnavailable "forward to generation was ambiguous", w)

/-- The daemon's answer to one of the operator's requests. -/
def reply (d : DaemonState) : DaemonRequest → Home → Outcome (ℕ × Json) × Home
  | .quiesce, w =>
    writes (beginQuiescence d.epoch)
      (200, .object [("operation", .text "quiesce"), ("status", .text "ok")]) w
  | .quiesceStatus, w =>
    (.ok (200, .object [("operation", .text "quiesce_status"), ("status", d.counters)]), w)
  | .certifyEpoch certificate generationEpoch, w =>
    if certificate = "" ∨ generationEpoch = "" then
      (.ok (400, .object [("error", .text "certificate and generation_epoch are required")]), w)
    else if generationEpoch = d.epoch ∧ d.settles then
      let finalHw := w.db.getGenerationPersistedHighWater d.epoch
      writes (certifyEpoch d.epoch certificate finalHw)
        (200, .object [("operation", .text "certify_epoch"), ("status", .text "ok"),
          ("generation_epoch", .text generationEpoch), ("final_high_water", .int finalHw),
          ("certificate", .text certificate)]) w
    else
      (.ok (409, .object [("operation", .text "certify_epoch"), ("status", .text "blocked")]), w)

end DaemonState

/-! ### The world of one call -/

structure Network where
  /-- `GenerationRegistry._active` -/
  registered : Option GenerationHandle
  /-- The daemon that listens on a transport. -/
  listens : String → Option DaemonState
  reaps : String → Option String → Json → Outcome Bool
  releases : String → String → Outcome Unit
  table : Processes
  clock : ℕ → ℚ

/-- What an effect of the operator answers and leaves. -/
def Network.answer (n : Network) : (a : Act) → Home → a.Answer × Home
  | ⟨_, .generations⟩, w => (n.registered.toList, w)
  | ⟨_, .forward transport request⟩, w =>
    match n.listens transport with
    | none => (refuse .generationUnavailable "forward to generation failed before delivery", w)
    | some d => d.reply request w
  | ⟨_, .reapHolder g build incarnation⟩, w => (n.reaps g build incarnation, w)
  | ⟨_, .releaseEpoch g e⟩, w => (n.releases g e, w)
  | a, w => Home.answer n.table n.clock a w

abbrev Network.runs {α : Type} (n : Network) (p : Routine α) (w : Home) :
    Except Raised α × Home := p.run n.answer w

/-- The daemon that the operator reaches for a generation. -/
def Network.route (n : Network) (g : String) : Option DaemonState :=
  ((n.registered.filter (·.generationId = g)).bind GenerationHandle.transport).bind n.listens

variable {n : Network} {w w' : Home} {g e : String} {at_ : Surroundings} {site : Site}

/-! ### Single routines -/

theorem net_bind {α β : Type} (p : Routine α) (f : α → Routine β) :
    n.runs (p >>= f) w =
      match n.runs p w with
      | (.ok a, w') => n.runs (f a) w'
      | (.error x, w') => (.error x, w') := by
  rw [Network.runs, run_bind, Network.runs]
  rcases p.run n.answer w with ⟨r, w'⟩
  cases r <;> rfl

theorem net_otherwise {β : Type} (p q : Routine (Option β)) :
    n.runs (p.otherwise q) w =
      match n.runs p w with
      | (.ok none, w') => n.runs q w'
      | (r, w') => (r, w') := by
  rw [Prog.otherwise, net_bind]
  rcases n.runs p w with ⟨x | (_ | verdict), w'⟩ <;> rfl

theorem net_ask {α : Type} (q : Query) (f : q.Value → Routine α) :
    n.runs (ask site q >>= f) w =
      match w.db.answer q with
      | .ok a => n.runs (f a) w
      | .error x => (.error x, w) := by
  simp only [Network.runs, ask, run_bind, run_perform, run_done, Network.answer, Home.answer]
  cases w.db.answer q <;> rfl

/-- The stages that only touch the store, the records and the processes. -/
def Stage.homely : Stage → Bool
  | asking | resolving | reconciling _ | certifying _ => true
  | _ => false

/-- The world answers the effect as the home does. -/
def Homely (n : Network) (a : Act) : Prop :=
  ∀ w, n.answer a w = Home.answer n.table n.clock a w

theorem fits_homely {stage : Stage} (homely : stage.homely = true) :
    stage.Fits (Homely n) site := by
  intro effect does w
  cases effect with
  | generations => cases stage <;> simp_all [Stage.does, Stage.homely]
  | forward transport request =>
    cases stage <;> cases request <;> simp_all [Stage.does, Stage.homely]
  | reapHolder => cases stage <;> simp_all [Stage.does, Stage.homely]
  | releaseEpoch => cases stage <;> simp_all [Stage.does, Stage.homely]
  | _ => rfl

theorem net_of_homely {α : Type} {p : Routine α} (only : p.Only (Homely n)) :
    n.runs p w = Home.runs n.table n.clock p w :=
  only.run_congr (fun _ w homely => homely w) w

theorem net_crashReconcile : n.runs (crashReconcileEpoch at_ g e) w =
    Home.runs n.table n.clock (crashReconcileEpoch at_ g e) w :=
  net_of_homely (only_crashReconcileEpoch (fits_homely rfl) (fits_homely rfl))

/-- A request reaches the daemon of the registry's handle, or nobody. -/
theorem net_daemonRpc {request : DaemonRequest} :
    n.runs (daemonRpc site g request) w =
      match n.route g with
      | none => (.ok none, w)
      | some d =>
        match d.reply request w with
        | (.ok reply, w') => (.ok (some reply), w')
        | (.error _, w') => (.ok none, w') := by
  have unavailable : ∀ (d : DaemonState) w x w', d.reply request w = (.error x, w') →
      ∃ message, x = .nelix ⟨.generationUnavailable, message⟩ := by
    intro d w x w' replied
    unfold DaemonState.reply DaemonState.writes at replied
    split at replied
    · split at replied <;> cases replied
      exact ⟨_, rfl⟩
    · cases replied
    · split at replied
      · cases replied
      · split at replied
        · dsimp only at replied
          split at replied <;> cases replied
          exact ⟨_, rfl⟩
        · cases replied
  simp only [daemonRpc, generations, net_bind]
  simp only [Network.runs, run_perform, run_done, Network.answer, Network.route]
  cases handle : n.registered with
  | none => rfl
  | some h =>
    by_cases named : h.generationId = g
    · simp only [Option.toList_some, List.find?_cons, named, decide_true, Option.filter_some,
        if_true, Option.bind_some]
      cases transport : h.transport with
      | none => rfl
      | some t =>
        simp only [Option.bind_some, forward]
        cases listens : n.listens t with
        | none =>
          simp only [bind, Prog.bind, Prog.rescue, run, Network.answer, listens]
          rfl
        | some d =>
          simp only [bind, Prog.bind, Prog.rescue, run, Network.answer, listens]
          rcases replied : d.reply request w with ⟨r, w'⟩
          cases r with
          | ok reply => rfl
          | error x =>
            obtain ⟨message, rfl⟩ := unavailable d w x w' replied
            rfl
    · simp [named, pure, Option.filter]

/-- With nobody else about, the confirmed number is resolved without a fault, and only counters are
written. -/
theorem net_resolveConfirmed (at_ : Surroundings) (n : Network) (site : Site) (w : Home)
    (named : e ≠ "") :
    ∃ progress, n.runs (resolveConfirmed at_ site e) w =
      (.ok true, { w with db := { w.db with progress := progress } }) := by
  have written : ∀ seq : ℕ, (Call.setGenerationConfirmedHighWater e (seq : ℤ)).apply w.db =
      .ok (w.db.setProgress { w.db.progressOf e with
        confirmedHighWater := max (w.db.progressOf e).confirmedHighWater seq }) := by
    intro seq
    simp [Call.apply, Db.setGenerationConfirmedHighWater, requireText, require, named, bind,
      Except.bind, pure, Except.pure]
  rw [net_of_homely (only_resolveConfirmed (fits_homely rfl))]
  let hw := contiguous ((w.db.listTerminalForEpoch e).map fun tr => tr.row.terminalSeq)
  by_cases some : 0 < hw
  · refine ⟨(w.db.setProgress { w.db.progressOf e with
      confirmedHighWater := max (w.db.progressOf e).confirmedHighWater hw }).progress, ?_⟩
    have ran : Home.runs n.table n.clock (resolveConfirmed at_ site e) w =
        Home.runs n.table n.clock (Prog.rescue (if 0 < hw then do
          write site (.setGenerationConfirmedHighWater e hw)
          pure true
        else pure true) fun _ => do
          warnWithFields at_
          pure false) w := rfl
    rw [ran, if_pos some]
    simp only [Home.runs, write, bind, Prog.bind, Prog.rescue, run, Home.answer, written hw]
    rfl
  · refine ⟨w.db.progress, ?_⟩
    have ran : Home.runs n.table n.clock (resolveConfirmed at_ site e) w =
        Home.runs n.table n.clock (Prog.rescue (if 0 < hw then do
          write site (.setGenerationConfirmedHighWater e hw)
          pure true
        else pure true) fun _ => do
          warnWithFields at_
          pure false) w := rfl
    rw [ran, if_neg some]
    rfl

/-! ### An epoch that serves uncertified -/

/-- The epoch's row serves the generation and is not certified. -/
def Awaiting (g e : String) (db : Db) : Prop :=
  ∃ row, db.findEpoch e = some row ∧ row.generationId = g ∧ row.processState = .serving ∧
    row.retirementState ≠ .certified

/-- The call does not certify the epoch and leaves the states of processes alone. -/
def Call.awaits (e : String) : Call → Bool
  | .setEpochRetirement e' .certified .. => e' ≠ e
  | .setEpochProcessState .. | .casEpochServing .. | .reconcileEpochDead .. => false
  | _ => true

theorem Awaiting.keeps {db db' : Db} {call : Call} (awaiting : Awaiting g e db)
    (done : call.apply db = .ok db') (awaits : Call.awaits e call = true) : Awaiting g e db' := by
  obtain ⟨row, found, owned, serving, uncertified⟩ := awaiting
  have named := Db.generationEpoch_of_findEpoch found
  rcases Call.epoch_stays done (Table.mem_of_find? found) with stays | ⟨row', member, move⟩
  · exact ⟨row, named ▸ Table.find?_of_mem stays, owned, serving, uncertified⟩
  · refine ⟨row', (move.key.1.trans named) ▸ Table.find?_of_mem member, move.key.2.trans owned, ?_⟩
    cases move with
    | promoted expected incarnation here => subst here; cases awaits
    | process state here => subst here; cases awaits
    | reconciled here => subst here; cases awaits
    | retirement state certificate final cell high here bound checked =>
      subst here
      cases state with
      | opened => exact ⟨serving, by simp [Db.retired]⟩
      | quiescing => exact ⟨serving, by simp [Db.retired]⟩
      | certified => simp [Call.awaits, named] at awaits

theorem Awaiting.settled {db : Db} {call : Call} (awaiting : Awaiting g e db)
    (awaits : Call.awaits e call = true) : Awaiting g e (settled db (call.apply db)) := by
  cases done : call.apply db with
  | error x => exact awaiting
  | ok db' => exact awaiting.keeps done awaits

/-- No effect that asks a settled daemon of the epoch to certify it, and no write that does. -/
def Passes (n : Network) (e : String) (a : Act) : Prop :=
  match a.effect with
  | .write call => Call.awaits e call = true
  | .forward transport (.certifyEpoch _ e') =>
    ∀ d, n.listens transport = some d → d.epoch = e → e' ≠ e
  | _ => True

theorem DaemonState.writes_awaits {call : Call} {reply : ℕ × Json}
    (awaiting : Awaiting g e w.db) (awaits : Call.awaits e call = true) :
    Awaiting g e (DaemonState.writes call reply w).2.db := by
  unfold DaemonState.writes
  cases done : call.apply w.db with
  | error x => exact awaiting
  | ok db' => exact awaiting.keeps done awaits

theorem DaemonState.reply_awaits {d : DaemonState} {request : DaemonRequest}
    (awaiting : Awaiting g e w.db)
    (passes : ∀ certificate e', request = .certifyEpoch certificate e' → d.epoch = e → e' ≠ e) :
    Awaiting g e (d.reply request w).2.db := by
  cases request with
  | quiesce => exact writes_awaits awaiting rfl
  | quiesceStatus => exact awaiting
  | certifyEpoch certificate e' =>
    simp only [DaemonState.reply]
    split
    · exact awaiting
    · split
      · rename_i here
        refine writes_awaits awaiting ?_
        have other : d.epoch ≠ e := fun same =>
          passes certificate e' rfl same (here.1.trans same)
        simp [certifyEpoch, Call.awaits, other]
      · exact awaiting

theorem Passes.keeps {a : Act} (passes : Passes n e a) (awaiting : Awaiting g e w.db) :
    Awaiting g e (n.answer a w).2.db := by
  obtain ⟨site, effect⟩ := a
  cases effect with
  | write call => exact awaiting.settled passes
  | forward transport request =>
    simp only [Network.answer]
    cases listens : n.listens transport with
    | none => exact awaiting
    | some d =>
      refine DaemonState.reply_awaits awaiting ?_
      rintro certificate e' rfl same
      exact passes d listens same
  | _ => exact awaiting

theorem Awaiting.runs {α : Type} {p : Routine α} (awaiting : Awaiting g e w.db)
    (only : p.Only (Passes n e)) : Awaiting g e (n.runs p w).2.db :=
  only.run_keeps (fun w : Home => Awaiting g e w.db) (fun _ _ passes held => passes.keeps held) awaiting

/-! ### Passing over dead epochs -/

section Apart

variable (reconciles : ReconcilesTo e w w') {e' : String} (apart : e' ≠ e)

include reconciles

theorem ReconcilesTo.sound {row : EpochRow} (sound : w.Sound) (found : w.db.findEpoch e = some row) :
    w'.Sound := by
  refine ⟨fun row' member => ?_, ?_⟩
  · have held := Table.find?_of_mem member
    by_cases same : row'.generationEpoch = e
    · obtain ⟨here, found', -, -, incarnation, -⟩ := reconciles.certified row found
      have both : w'.db.findEpoch e = some row' := same ▸ held
      obtain rfl : here = row' := Option.some.inj (found'.symm.trans both)
      obtain ⟨named, filled⟩ := sound.shaped row (Table.mem_of_find? found)
      exact ⟨same ▸ Db.generationEpoch_of_findEpoch found ▸ named, incarnation ▸ filled⟩
    · have before := reconciles.epochs row'.generationEpoch same
      exact sound.shaped row' (Table.mem_of_find? (before.symm.trans held))
  · intro sid held
    rw [reconciles.sessions] at held
    rw [Db.findStart, reconciles.starts]
    exact sound.backed sid held

include apart

/-- The receipts of another epoch's sessions are as they were. -/
theorem ReconcilesTo.receipt {start : StartRow} (found : w.db.findStart start.sessionId = some start)
    (bound : start.generationEpoch = some e') :
    w'.db.terminal.find? start.sessionId = w.db.terminal.find? start.sessionId := by
  refine reconciles.others _ fun lost outstanding same => ?_
  obtain ⟨found', bound', -⟩ := mem_listStarts.mp outstanding
  rw [same, found] at found'
  obtain rfl := Option.some.inj found'
  exact apart (Option.some.inj (bound.symm.trans bound'))

theorem ReconcilesTo.listStarts :
    w'.db.listStartsForEpoch e' = w.db.listStartsForEpoch e' := by
  unfold Db.listStartsForEpoch
  rw [reconciles.starts]
  refine List.filter_congr fun start member => ?_
  by_cases bound : start.generationEpoch = some e'
  · rw [reconciles.sessions, reconciles.receipt apart (Table.find?_of_mem member) bound]
  · simp [bound]

theorem ReconcilesTo.highWater : w'.db.getGenerationPersistedHighWater e' =
    w.db.getGenerationPersistedHighWater e' := by
  have same : ∀ sid, w'.db.findStart sid = w.db.findStart sid := by
    intro sid
    rw [Db.findStart, Db.findStart, reconciles.starts]
  have receipts : ∀ (row : TerminalRow) (start : StartRow),
      w.db.findStart row.sessionId = some start → start.generationEpoch = some e' →
      (row ∈ w'.db.terminal.rows ↔ row ∈ w.db.terminal.rows) := by
    intro row start found bound
    have named := Db.sessionId_of_findStart found
    have held : w.db.findStart start.sessionId = some start := named.symm ▸ found
    have kept := reconciles.receipt apart held bound
    rw [Table.mem_rows, Table.mem_rows, show Keyed.key row = start.sessionId from named.symm, kept]
  refine le_antisymm (highWater_le.mpr ?_) (highWater_le.mpr ?_)
  · intro row member start found bound
    rw [same] at found
    exact highWater_le.mp le_rfl row ((receipts row start found bound).mp member) start found bound
  · intro row member start found bound
    exact highWater_le.mp le_rfl row ((receipts row start found bound).mpr member) start
      ((same _).trans found) bound

theorem ReconcilesTo.lostHighWater :
    lostHighWater w'.db e' = Router.lostHighWater w.db e' := by
  simp only [Router.lostHighWater, reconciles.listStarts apart, reconciles.highWater apart,
    reconciles.progress e' apart]

theorem ReconcilesTo.accountedFor {table : Processes} :
    AccountedFor table e' w' ↔ AccountedFor table e' w := by
  unfold AccountedFor
  rw [reconciles.listStarts apart, reconciles.children]

end Apart

/-- The strict listing still goes through. -/
theorem ReconcilesTo.readable {row : EpochRow} (reconciles : ReconcilesTo e w w') (sound : w.Sound)
    (found : w.db.findEpoch e = some row)
    (readable : ∃ epochs, w.db.listEpochsStrict g = .ok epochs) :
    ∃ epochs, w'.db.listEpochsStrict g = .ok epochs := by
  obtain ⟨named, all⟩ := listEpochsStrict_ok.mp readable
  refine listEpochsStrict_ok.mpr ⟨named, fun row' member owned => ?_⟩
  have held := Table.find?_of_mem member
  have after := (reconciles.sound sound found).shaped row' member
  by_cases same : row'.generationEpoch = e
  · obtain ⟨here, found', -, -, -, certificate⟩ := reconciles.certified row found
    have both : w'.db.findEpoch e = some row' := same ▸ held
    obtain rfl : here = row' := Option.some.inj (found'.symm.trans both)
    exact decode_isSome.mpr ⟨after.2, certificate⟩
  · have before := reconciles.epochs row'.generationEpoch same
    exact all row' (Table.mem_of_find? (before.symm.trans held)) owned

/-- Phase 1 finds nothing to hold in a listed epoch that the pointer does not name. -/
def PassedOver (at_ : Surroundings) (table : Processes) (g : String) (w : Home)
    (ep : EpochRecord) : Prop :=
  ep.retirementState = .certified ∨ ep.processState ≠ .dead ∨ Reconcilable at_ table g ep w

theorem ReconcilesTo.passedOver {row : EpochRow} {ep : EpochRecord}
    (reconciles : ReconcilesTo e w w') (sound : w.Sound) (found : w.db.findEpoch e = some row)
    (readable : ∃ epochs, w.db.listEpochsStrict g = .ok epochs)
    (apart : ep.generationEpoch ≠ e) {table : Processes} :
    PassedOver at_ table g w' ep ↔ PassedOver at_ table g w ep := by
  have same : Reconcilable at_ table g ep w' ↔ Reconcilable at_ table g ep w := by
    constructor
    · rintro ⟨-, gone, accounted, fits⟩
      exact ⟨readable, gone, (reconciles.accountedFor apart).mp accounted,
        reconciles.lostHighWater apart ▸ fits⟩
    · rintro ⟨-, gone, accounted, fits⟩
      exact ⟨reconciles.readable sound found readable, gone,
        (reconciles.accountedFor apart).mpr accounted, (reconciles.lostHighWater apart).symm ▸ fits⟩
  unfold PassedOver
  rw [same]

/-- What phase 1 leaves of the others when it has passed over a list of epochs. -/
structure PassedTo (names : List String) (w w' : Home) : Prop where
  sound : w'.Sound
  generations : w'.db.generations = w.db.generations
  epochs : ∀ e, e ∉ names → w'.db.findEpoch e = w.db.findEpoch e
  highWater : ∀ e, e ∉ names → w'.db.getGenerationPersistedHighWater e =
    w.db.getGenerationPersistedHighWater e

theorem runs_certifyListed_apart {ep : EpochRecord} {current : Option String}
    (uncertified : ep.retirementState ≠ .certified) (dead : ep.processState = .dead) :
    n.runs (certifyListed at_ g current ep) w =
      match Home.runs n.table n.clock (crashReconcileEpoch at_ g ep.generationEpoch) w with
      | (.ok none, w') => (.ok none, w')
      | (.ok (some obstacle), w') =>
        (.ok (some (.crashReconcileFailed ep.generationEpoch obstacle)), w')
      | (.error x, w') => (.error x, w') := by
  rw [certifyListed, if_neg uncertified, if_pos dead, net_bind, net_crashReconcile]
  rcases Home.runs n.table n.clock (crashReconcileEpoch at_ g ep.generationEpoch) w with ⟨r, w'⟩
  rcases r with x | (_ | obstacle) <;> rfl

/-- Phase 1 passes over epochs that the pointer does not name exactly when each of them is certified,
or not dead, or can be reconciled as things stood. -/
theorem visit_passes (at_ : Surroundings) (n : Network) {current : Option String} {epochs : List EpochRecord} (sound : w.Sound)
    (rows : ∀ ep ∈ epochs, ∃ row, w.db.findEpoch ep.generationEpoch = some row ∧
      row.generationId = g ∧ row.decode = some ep)
    (distinct : (epochs.map EpochRecord.generationEpoch).Nodup)
    (unnamed : ∀ ep ∈ epochs, current ≠ some ep.generationEpoch) :
    ((n.runs (Prog.visit (certifyListed at_ g current) epochs) w).1 = .ok none ↔
      ∀ ep ∈ epochs, PassedOver at_ n.table g w ep) ∧
    ((∀ ep ∈ epochs, PassedOver at_ n.table g w ep) → ∃ w',
      n.runs (Prog.visit (certifyListed at_ g current) epochs) w = (.ok none, w') ∧
        PassedTo (epochs.map EpochRecord.generationEpoch) w w') := by
  induction epochs generalizing w with
  | nil =>
    refine ⟨iff_of_true rfl (by simp), fun _ => ⟨w, rfl, sound, rfl, fun _ _ => rfl, fun _ _ => rfl⟩⟩
  | cons ep rest ih =>
    rw [List.map_cons, List.nodup_cons] at distinct
    have unnamedRest : ∀ other ∈ rest, current ≠ some other.generationEpoch := fun other member =>
      unnamed other (List.mem_cons_of_mem ep member)
    have rowsRest := fun other member => rows other (List.mem_cons_of_mem ep member)
    rw [List.forall_mem_cons]
    by_cases spared : ep.retirementState = .certified ∨ ep.processState ≠ .dead
    · -- Passed over without a trace.
      have ran : n.runs (certifyListed at_ g current ep) w = (.ok none, w) := by
        unfold certifyListed
        rcases spared with certified | alive
        · rw [if_pos certified]
          rfl
        · split
          · rfl
          · rw [if_neg (unnamed ep (by simp))]
            rfl
      have passed : PassedOver at_ n.table g w ep := spared.imp id .inl
      obtain ⟨iff, goes⟩ := ih sound rowsRest distinct.2 unnamedRest
      have same : n.runs (Prog.visit (certifyListed at_ g current) (ep :: rest)) w =
          n.runs (Prog.visit (certifyListed at_ g current) rest) w := by
        rw [Prog.visit, net_otherwise, ran]
      rw [same]
      refine ⟨iff.trans (by simp [passed]), fun both => ?_⟩
      obtain ⟨w', ran', passes⟩ := goes both.2
      exact ⟨w', ran', passes.sound, passes.generations,
        fun e apart => passes.epochs e fun member => apart (List.mem_cons_of_mem _ member),
        fun e apart => passes.highWater e fun member => apart (List.mem_cons_of_mem _ member)⟩
    rw [not_or, not_not] at spared
    obtain ⟨certified, dead⟩ := spared
    obtain ⟨row, found, owned, decodes⟩ := rows ep (by simp)
    have process : row.processState = .dead :=
      (decode_eq_some decodes).2.2.1.symm.trans dead
    by_cases reconcilable : Reconcilable at_ n.table g ep w
    · obtain ⟨w₁, ran, reconciles⟩ := runs_crashReconcile_ok sound.shaped sound.backed found owned
        decodes process n.clock reconcilable
      have apart : ∀ other ∈ rest, other.generationEpoch ≠ ep.generationEpoch :=
        fun other member same => distinct.1 (same ▸ List.mem_map_of_mem member)
      obtain ⟨iff, goes⟩ := ih (reconciles.sound sound found) (fun other member => by
        rw [reconciles.epochs _ (apart other member)]
        exact rowsRest other member) distinct.2 unnamedRest
      have same : n.runs (Prog.visit (certifyListed at_ g current) (ep :: rest)) w =
          n.runs (Prog.visit (certifyListed at_ g current) rest) w₁ := by
        rw [Prog.visit, net_otherwise, runs_certifyListed_apart certified dead, ran]
      have before : (∀ other ∈ rest, PassedOver at_ n.table g w₁ other) ↔
          ∀ other ∈ rest, PassedOver at_ n.table g w other :=
        forall₂_congr fun other member => reconciles.passedOver sound found reconcilable.readable
          (apart other member)
      rw [same]
      refine ⟨iff.trans (before.trans (by simp [PassedOver, reconcilable])), fun both => ?_⟩
      obtain ⟨w', ran', passes⟩ := goes (before.mpr both.2)
      refine ⟨w', ran', passes.sound, passes.generations.trans reconciles.generations, ?_, ?_⟩
      · intro e apart
        rw [List.map_cons, List.mem_cons, not_or] at apart
        exact (passes.epochs e apart.2).trans (reconciles.epochs e apart.1)
      · intro e apart
        rw [List.map_cons, List.mem_cons, not_or] at apart
        exact (passes.highWater e apart.2).trans (reconciles.highWater apart.1)
    · have blocked : ¬ PassedOver at_ n.table g w ep := by
        simp [PassedOver, certified, dead, reconcilable]
      refine ⟨iff_of_false ?_ fun both => blocked both.1, fun both => absurd both.1 blocked⟩
      have iff : (Home.runs n.table n.clock (crashReconcileEpoch at_ g ep.generationEpoch) w).1 =
          .ok none ↔ _ :=
        runs_crashReconcile_iff sound.shaped sound.backed found owned decodes process
      have stopped := mt iff.mp reconcilable
      rw [Prog.visit, net_otherwise, runs_certifyListed_apart certified dead]
      rcases ran : Home.runs n.table n.clock (crashReconcileEpoch at_ g ep.generationEpoch) w with
        ⟨x | (_ | obstacle), w'⟩
      · rintro ⟨⟩
      · rw [ran] at stopped
        exact absurd rfl stopped
      · rintro ⟨⟩

end Nelix.Router
