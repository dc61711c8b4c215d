import Nelix.Router.OperatorNetwork
import Nelix.Router.OperatorCrashRuns

/-!
# Whether retire makes progress

A draining generation has an epoch that serves uncertified. The call certifies it only along one
way: the pointer names it, phase 1 gets there, and the registry's one handle leads to its daemon.

## Main results

`retire_progress_iff`: exactly when one call certifies the epoch; and that no number of calls
certifies it once its daemon is dead.
-/
namespace Nelix.Router

open Contracts Core Store Prog Routine

variable {n : Network} {w w' : Home} {g e : String} {at_ : Surroundings}

/-- The epoch's row is certified. -/
def CertifiedIn (e : String) (db : Db) : Prop :=
  ∃ row, db.findEpoch e = some row ∧ row.retirementState = .certified

theorem Awaiting.not_certified {db : Db} (awaiting : Awaiting g e db) : ¬ CertifiedIn e db := by
  rintro ⟨row, found, certified⟩
  obtain ⟨row', found', -, -, uncertified⟩ := awaiting
  obtain rfl : row = row' := Option.some.inj (found.symm.trans found')
  exact uncertified certified

/-! ### What keeps a certification -/

/-- The call does not take the epoch's certification back. -/
def Call.certified (e : String) : Call → Bool
  | .setEpochRetirement e' state .. => state = .certified || e' ≠ e
  | _ => true

theorem CertifiedIn.keeps {db db' : Db} {call : Call} (certified : CertifiedIn e db)
    (done : call.apply db = .ok db') (keeps : Call.certified e call = true) :
    CertifiedIn e db' := by
  obtain ⟨row, found, state⟩ := certified
  have named := Db.generationEpoch_of_findEpoch found
  rcases Call.epoch_stays done (Table.mem_of_find? found) with stays | ⟨row', member, move⟩
  · exact ⟨row, named ▸ Table.find?_of_mem stays, state⟩
  · refine ⟨row', (move.key.1.trans named) ▸ Table.find?_of_mem member, ?_⟩
    cases move with
    | promoted expected incarnation here => exact state
    | process state' here => exact state
    | reconciled here => exact state
    | retirement state' certificate final cell high here bound checked =>
      subst here
      cases state' with
      | certified => rfl
      | opened => simp [Call.certified, named] at keeps
      | quiescing => simp [Call.certified, named] at keeps

/-- The effect sends nothing to a daemon and takes no certification of the epoch back. -/
def Spares (e : String) (a : Act) : Prop :=
  match a.effect with
  | .write call => Call.certified e call = true
  | .forward .. => False
  | _ => True

theorem CertifiedIn.runs {α : Type} {p : Routine α} (certified : CertifiedIn e w.db)
    (only : p.Only (Spares e)) : CertifiedIn e (n.runs p w).2.db := by
  refine only.run_keeps (fun w : Home => CertifiedIn e w.db) ?_ certified
  rintro ⟨site, effect⟩ w spares held
  cases effect with
  | write call =>
    show CertifiedIn e (settled w.db (call.apply w.db))
    cases done : call.apply w.db with
    | error x => exact held
    | ok db' => exact held.keeps done spares
  | forward => exact spares.elim
  | _ => exact held

/-! ### What the stages keep -/

theorem late_passes {a : Act} (late : Late a) : Passes n e a := by
  obtain ⟨site, effect⟩ := a
  obtain ⟨stage, does, late⟩ := late
  cases effect with
  | write call => cases stage <;> cases call <;> simp_all [Stage.does, Stage.late, Passes, Call.awaits]
  | forward transport request =>
    cases stage <;> cases request <;> simp_all [Stage.does, Stage.late]
  | _ => trivial

theorem late_spares {a : Act} (late : Late a) : Spares e a := by
  obtain ⟨site, effect⟩ := a
  obtain ⟨stage, does, late⟩ := late
  cases effect with
  | write call =>
    cases stage <;> cases call <;> simp_all [Stage.does, Stage.late, Spares, Call.certified]
  | forward transport request => cases stage <;> cases request <;> simp_all [Stage.does, Stage.late]
  | _ => trivial

/-- Serving an epoch certifies no other one, and none whose daemon is not there. -/
theorem passes_serving {site : Site} {e' : String} :
    (Stage.serving e').Fits (Passes n e) site := by
  intro effect does
  cases effect with
  | write call =>
    cases call with
    | setEpochRetirement e'' state certificate final =>
      cases state <;> simp_all [Stage.does, Passes, Call.awaits]
    | _ => simp_all [Stage.does]
  | forward transport request => cases request <;> simp_all [Stage.does, Passes]
  | _ => trivial

theorem passes_requesting {site : Site} {e' : String}
    (unreached : e' ≠ e ∨ ∀ transport d, n.listens transport = some d → d.epoch ≠ e) :
    (Stage.requesting e').Fits (Passes n e) site := by
  intro effect does
  cases effect with
  | write call => simp [Stage.does] at does
  | forward transport request =>
    cases request with
    | certifyEpoch certificate e'' =>
      simp only [Stage.does, decide_eq_true_eq] at does
      subst does
      intro d listens same
      rcases unreached with other | nobody
      · exact other
      · exact absurd same (nobody transport d listens)
    | _ => simp [Stage.does] at does
  | _ => trivial

theorem passes_resolving {site : Site} : Stage.resolving.Fits (Passes n e) site := by
  intro effect does
  cases effect with
  | write call => cases call <;> simp_all [Stage.does, Passes, Call.awaits]
  | forward transport request => simp [Stage.does] at does
  | _ => trivial

theorem passes_reconciling {site : Site} {e' : String} :
    (Stage.reconciling e').Fits (Passes n e) site := by
  intro effect does
  cases effect with
  | write call =>
    cases call with
    | setEpochRetirement e'' state certificate final =>
      cases state <;> simp_all [Stage.does, Passes, Call.awaits]
    | _ => simp_all [Stage.does, Passes, Call.awaits]
  | forward transport request => simp [Stage.does] at does
  | _ => trivial

theorem passes_certifying {site : Site} {e' : String} (other : e' ≠ e) :
    (Stage.certifying e').Fits (Passes n e) site := by
  intro effect does
  cases effect with
  | write call =>
    cases call with
    | setEpochRetirement e'' state certificate final =>
      cases state <;> simp_all [Stage.does, Passes, Call.awaits]
    | _ => simp_all [Stage.does]
  | forward transport request => simp [Stage.does] at does
  | _ => trivial

theorem spares_reconciling {site : Site} {e' : String} (other : e' ≠ e) :
    (Stage.reconciling e').Fits (Spares e) site ∧ (Stage.certifying e').Fits (Spares e) site := by
  constructor
  all_goals
    intro effect does
    cases effect with
    | write call =>
      cases call with
      | setEpochRetirement e'' state certificate final =>
        cases state <;> simp_all [Stage.does, Spares, Call.certified]
      | _ => simp_all [Stage.does, Spares, Call.certified]
    | forward transport request => simp [Stage.does] at does
    | _ => trivial

/-- A listed epoch that is another one, or is not dead, and is not served to the epoch's daemon. -/
theorem passes_certifyListed {current : Option String} {ep : EpochRecord}
    (alive : ep.generationEpoch = e → ep.processState ≠ .dead)
    (unreached : current = some ep.generationEpoch → ep.generationEpoch = e →
      ∀ transport d, n.listens transport = some d → d.epoch ≠ e) :
    (certifyListed at_ g current ep).Only (Passes n e) := by
  refine only_certifyListed_at (fun named => ⟨passes_serving, ?_, passes_resolving⟩)
    fun dead => ⟨passes_reconciling, passes_certifying fun same => alive same dead⟩
  refine passes_requesting ?_
  by_cases same : ep.generationEpoch = e
  · exact .inr (unreached named same)
  · exact .inl same

theorem passes_visit {current : Option String} {epochs : List EpochRecord}
    (alive : ∀ ep ∈ epochs, ep.generationEpoch = e → ep.processState ≠ .dead)
    (unreached : ∀ ep ∈ epochs, current = some ep.generationEpoch → ep.generationEpoch = e →
      ∀ transport d, n.listens transport = some d → d.epoch ≠ e) :
    (Prog.visit (certifyListed at_ g current) epochs).Only (Passes n e) :=
  .visit_mem fun ep member => passes_certifyListed (alive ep member) (unreached ep member)

theorem passes_retireLocked {gen : GenerationRow} {epochs : List EpochRecord}
    (alive : ∀ ep ∈ epochs, ep.generationEpoch = e → ep.processState ≠ .dead)
    (unreached : ∀ ep ∈ epochs, gen.currentEpoch = some ep.generationEpoch →
      ep.generationEpoch = e → ∀ transport d, n.listens transport = some d → d.epoch ≠ e) :
    (retireLocked at_ g gen epochs).Only (Passes n e) := by
  refine .bind (.otherwise (passes_visit alive unreached)
    (late_gates.mono fun _ late => late_passes late)) fun hold => ?_
  cases hold with
  | some hold => exact .pure
  | none => exact late_finalize.mono fun _ late => late_passes late

/-! ### Certifying the epoch that the pointer names -/

/-- The epoch waits for its certification, with its receipts as they are. -/
structure Waits (g e : String) (w w' : Home) : Prop where
  awaiting : Awaiting g e w'.db
  starts : w'.db.starts = w.db.starts
  terminal : w'.db.terminal = w.db.terminal

theorem Waits.highWater (waits : Waits g e w w') :
    w'.db.getGenerationPersistedHighWater e = w.db.getGenerationPersistedHighWater e := by
  simp only [Db.getGenerationPersistedHighWater, Db.findStart, waits.starts, waits.terminal]

theorem reply_ledger (d : DaemonState) (request : DaemonRequest) (w : Home) :
    (d.reply request w).2.db.starts = w.db.starts ∧
      (d.reply request w).2.db.terminal = w.db.terminal := by
  have written : ∀ e' state certificate final reply,
      (DaemonState.writes (.setEpochRetirement e' state certificate final) reply w).2.db.starts =
          w.db.starts ∧
        (DaemonState.writes (.setEpochRetirement e' state certificate final) reply w).2.db.terminal =
          w.db.terminal := by
    intro e' state certificate final reply
    unfold DaemonState.writes
    cases done : (Call.setEpochRetirement e' state certificate final).apply w.db with
    | error x => exact ⟨rfl, rfl⟩
    | ok db' =>
      obtain ⟨starts, -, terminal⟩ := Db.identity_ledger done
      exact ⟨starts, terminal⟩
  cases request with
  | quiesce => exact written _ _ _ _ _
  | quiesceStatus => exact ⟨rfl, rfl⟩
  | certifyEpoch certificate e' =>
    simp only [DaemonState.reply]
    split
    · exact ⟨rfl, rfl⟩
    · split
      · exact written _ _ _ _ _
      · exact ⟨rfl, rfl⟩

/-- A request that certifies nothing leaves the epoch waiting. -/
theorem net_request (site : Site) (request : DaemonRequest) (awaiting : Awaiting g e w.db)
    (harmless : ∀ certificate e', request ≠ .certifyEpoch certificate e') :
    ∃ w', n.runs (daemonRpc site g request) w =
        (.ok ((n.route g).bind fun d => (d.reply request w).1.toOption), w') ∧ Waits g e w w' := by
  rw [net_daemonRpc]
  cases n.route g with
  | none => exact ⟨w, rfl, awaiting, rfl, rfl⟩
  | some d =>
    obtain ⟨starts, terminal⟩ := reply_ledger d request w
    have later : Awaiting g e (d.reply request w).2.db :=
      DaemonState.reply_awaits awaiting fun certificate e' same => absurd same (harmless _ _)
    rcases replied : d.reply request w with ⟨x | reply, w'⟩ <;>
      rw [replied] at starts terminal later
    · exact ⟨w', by simp [replied, Except.toOption], later, starts, terminal⟩
    · exact ⟨w', by simp [replied, Except.toOption], later, starts, terminal⟩

theorem isQuiesced_counters (d : DaemonState) :
    isQuiesced (some (200, .object [("operation", .text "quiesce_status"),
      ("status", d.counters)])) = .ok (decide d.idle) := by
  have shown : isQuiesced (some (200, .object [("operation", .text "quiesce_status"),
      ("status", d.counters)])) = .ok (decide (d.liveSessions = 0) && (decide (d.obligations = 0) &&
        (decide (d.terminalPending = 0) && decide (d.inFlight = 0)))) := by
    simp [isQuiesced, DaemonState.counters, Json.get?, List.lookup_cons, Json.isZero, Bool.and_assoc]
  rw [shown]
  refine congrArg Except.ok (Bool.eq_iff_iff.mpr (Iff.trans ?_ decide_eq_true_iff.symm))
  simp only [Bool.and_eq_true, decide_eq_true_eq, DaemonState.idle]

/-- The registry leads to the epoch's daemon, and it is idle. -/
def Routed (n : Network) (g e : String) : Prop :=
  ∃ d, n.route g = some d ∧ d.epoch = e ∧ d.idle

/-- What phase 1 says of the epoch that the pointer names, from the daemon's status on. -/
def certifyQuiesced (at_ : Surroundings) (g : String) (ep : EpochRecord) :
    Routine (Option Hold) := do
  let status ← daemonRpc .retiring g .quiesceStatus
  let quiesced ← .done (isQuiesced status)
  if quiesced = false then pure (some .notQuiesced)
  else do
    let _ ← daemonRpc .retiring g
      (.certifyEpoch s!"retire:{g}:{ep.generationEpoch}" ep.generationEpoch)
    let refreshed ← ask .retiring (.getEpochRetirementState ep.generationEpoch)
    if refreshed ≠ .certified then pure (some .certifyFailed)
    else do
      if (← resolveConfirmed at_ .certifying ep.generationEpoch) = false then
        pure (some .confirmedBelowFinal)
      else if (← confirmedReaches g ep.generationEpoch) = false then
        pure (some .confirmedBelowFinal)
      else pure none

/-- Up to the daemon's status nothing can go wrong. -/
theorem net_certifyServing (at_ : Surroundings) (n : Network) {ep : EpochRecord} (sound : w.Sound) (awaiting : Awaiting g e w.db)
    (same : ep.generationEpoch = e) :
    ∃ w', n.runs (certifyServing at_ g ep) w = n.runs (certifyQuiesced at_ g ep) w' ∧
      Waits g e w w' := by
  obtain ⟨row, found, -⟩ := id awaiting
  have named : e ≠ "" := Db.generationEpoch_of_findEpoch found ▸
    (sound.shaped row (Table.mem_of_find? found)).1
  obtain ⟨w₁, closed, closes⟩ := runs_closeAdmission n.table n.clock named found same .retiring
  have closed : n.runs (closeAdmission .retiring ep) w = (.ok (), w₁) := by
    rw [← closed]
    unfold closeAdmission
    split <;> rfl
  have first : Awaiting g e w₁.db := by
    have only : (closeAdmission .retiring ep).Only (Passes n e) := only_closeAdmission passes_serving
    have kept := awaiting.runs only
    rw [closed] at kept
    exact kept
  obtain ⟨w₂, quiesced, second⟩ := net_request (n := n) .retiring .quiesce first
    (by nofun)
  obtain ⟨progress, resolved⟩ := net_resolveConfirmed at_ n .certifying w₂ named
  refine ⟨{ w₂ with db := { w₂.db with progress := progress } }, ?_, second.awaiting,
    second.starts.trans closes.starts, second.terminal.trans closes.terminal⟩
  rw [certifyServing, net_bind, closed]
  dsimp only
  rw [net_bind, quiesced]
  dsimp only
  rw [same, net_bind, resolved]
  subst same
  rfl

theorem spares_resolveConfirmed {site : Site} {e' : String} :
    (resolveConfirmed at_ site e').Only (Spares e) :=
  only_resolveConfirmed fun _ does => late_spares ⟨.resolving, does, rfl⟩

theorem spares_confirmedReaches {e' : String} : (confirmedReaches g e').Only (Spares e) :=
  have fits : Stage.asking.Fits (Spares e) .retiring := fun _ does =>
    late_spares ⟨.asking, does, rfl⟩
  only_confirmedReaches fits

theorem getRetirementState {row : EpochRow} (named : e ≠ "") (found : w.db.findEpoch e = some row) :
    w.db.answer (.getEpochRetirementState e) = .ok row.retirementState := by
  simp [Db.answer, Db.getEpochRetirementState, requireText, Db.requireEpoch, require, demand, named,
    found, bind, Except.bind, pure, Except.pure]

/-- The daemon's status decides, and then the certification it writes. -/
theorem net_certifyQuiesced (at_ : Surroundings) {ep : EpochRecord} (awaiting : Awaiting g e w.db) (named : e ≠ "")
    (same : ep.generationEpoch = e) :
    (Routed n g e ∧ (w.db.getGenerationPersistedHighWater e : ℤ) ≤ maxInteger →
      CertifiedIn e (n.runs (certifyQuiesced at_ g ep) w).2.db) ∧
    (¬ (Routed n g e ∧ (w.db.getGenerationPersistedHighWater e : ℤ) ≤ maxInteger) →
      (∃ hold, (n.runs (certifyQuiesced at_ g ep) w).1 = .ok (some hold)) ∧
        Awaiting g e (n.runs (certifyQuiesced at_ g ep) w).2.db) := by
  subst same
  obtain ⟨row, found, owned, serving, uncertified⟩ := id awaiting
  rw [certifyQuiesced, net_bind, net_daemonRpc]
  cases route : n.route g with
  | none =>
    refine ⟨?_, fun _ => ⟨⟨.notQuiesced, rfl⟩, awaiting⟩⟩
    rintro ⟨⟨d, routed, -⟩, -⟩
    rw [route] at routed
    cases routed
  | some d =>
    simp only [DaemonState.reply]
    have status := isQuiesced_counters d
    by_cases idle : d.idle
    swap
    · -- The daemon is not drained yet.
      rw [net_bind]
      simp only [Network.runs, run_done, status, idle, decide_false]
      refine ⟨?_, fun _ => ⟨⟨.notQuiesced, rfl⟩, awaiting⟩⟩
      rintro ⟨⟨d', routed, -, idle'⟩, -⟩
      rw [route] at routed
      cases routed
      exact absurd idle' idle
    have quiesced : ∀ f : Bool → Routine (Option Hold),
        n.runs (Prog.done (isQuiesced (some (200, .object [("operation", .text "quiesce_status"),
          ("status", d.counters)]))) >>= f) w = n.runs (f true) w := by
      intro f
      rw [status, decide_eq_true idle]
      rfl
    rw [quiesced]
    simp only [Bool.true_eq_false, if_false]
    rw [net_bind, net_daemonRpc, route]
    have filled : ¬ (s!"retire:{g}:{ep.generationEpoch}" = "" ∨ ep.generationEpoch = "") := by
      rw [not_or]
      exact ⟨filled_append (filled_append (filled_append (by decide))), named⟩
    simp only [DaemonState.reply, if_neg filled]
    -- What is left when the row was not certified.
    have failed : ∀ f : RetirementState → Routine (Option Hold),
        f row.retirementState = pure (some .certifyFailed) →
        n.runs (ask .retiring (.getEpochRetirementState ep.generationEpoch) >>= f) w =
          (.ok (some .certifyFailed), w) := by
      intro f ends
      rw [net_ask, getRetirementState named found]
      dsimp only
      rw [ends]
      rfl
    by_cases own : ep.generationEpoch = d.epoch
    swap
    · -- Another epoch's daemon refuses.
      rw [if_neg (fun both => own both.1)]
      dsimp only
      rw [failed _ (if_pos uncertified)]
      refine ⟨?_, fun _ => ⟨⟨_, rfl⟩, awaiting⟩⟩
      rintro ⟨⟨d', routed, named', -⟩, -⟩
      rw [route] at routed
      cases routed
      exact absurd named'.symm own
    have settles : d.settles := ⟨idle.1, idle.2.1, idle.2.2.2⟩
    rw [if_pos ⟨own, settles⟩, ← own]
    unfold DaemonState.writes certifyEpoch
    by_cases fits : (w.db.getGenerationPersistedHighWater ep.generationEpoch : ℤ) ≤ maxInteger
    · -- The daemon certifies; what the router makes of it does not matter any more.
      have applied := setEpochRetirement_fits .certified
        (.text s!"retire:{g}:{ep.generationEpoch}")
        (some (w.db.getGenerationPersistedHighWater ep.generationEpoch)) named found rfl fits
      rw [Option.map_some] at applied
      rw [applied]
      dsimp only
      refine ⟨fun _ => ?_, fun held => absurd ⟨⟨d, route, own.symm, idle⟩, fits⟩ held⟩
      refine CertifiedIn.runs ⟨_, findEpoch_retired found, rfl⟩ ?_
      refine .bind (.perform trivial fun _ => .done) fun refreshed => ?_
      split
      · exact .pure
      · refine .bind spares_resolveConfirmed fun resolved => ?_
        split
        · exact .pure
        · refine .bind spares_confirmedReaches fun reached => ?_
          split
          · exact .pure
          · exact .pure
    · rw [setEpochRetirement_over named fits]
      simp only [refuse]
      rw [failed _ (if_pos uncertified)]
      exact ⟨fun both => absurd both.2 fits, fun _ => ⟨⟨_, rfl⟩, awaiting⟩⟩

/-! ### The call -/

theorem net_visit_append {α β : Type} (step : α → Routine (Option β)) (xs ys : List α) (w : Home) :
    n.runs (Prog.visit step (xs ++ ys)) w =
      match n.runs (Prog.visit step xs) w with
      | (.ok none, w') => n.runs (Prog.visit step ys) w'
      | (r, w') => (r, w') := by
  induction xs generalizing w with
  | nil => rfl
  | cons a rest ih =>
    rw [List.cons_append, Prog.visit, net_otherwise, Prog.visit, net_otherwise]
    rcases n.runs (step a) w with ⟨x | (_ | verdict), w'⟩
    · rfl
    · exact ih w'
    · rfl

theorem net_readGeneration {gen : GenerationRow} (read : w.db.getGeneration g = .ok gen) :
    n.runs (readGeneration g) w = (.ok gen, w) := by
  simp only [Network.runs, readGeneration, ask, Prog.rescue, run, Network.answer, Home.answer,
    Db.answer, read]

theorem net_readGeneration_fails {x : Raised} (read : w.db.getGeneration g = .error x) :
    ∃ y, n.runs (readGeneration g) w = (.error y, w) := by
  -- whatever the handler says, it raises
  obtain ⟨handler, ran, raises⟩ : ∃ handler : Raised → Routine GenerationRow,
      n.runs (readGeneration g) w = n.runs (Prog.rescue (.done (w.db.getGeneration g)) handler) w ∧
        ∀ x, ∃ y, handler x = .raise y := by
    refine ⟨_, rfl, fun x => ?_⟩
    cases x with
    | nelix e =>
      dsimp only
      split
      · exact ⟨_, rfl⟩
      · exact ⟨_, rfl⟩
    | _ => exact ⟨_, rfl⟩
  obtain ⟨y, raised⟩ := raises x
  exact ⟨y, by rw [ran, read, Prog.rescue, raised]; rfl⟩

/-- The lock is given and given back without a trace. -/
theorem net_retireListed {gen : GenerationRow} {epochs : List EpochRecord} (some : epochs ≠ []) :
    n.runs (retireListed at_ g gen epochs) w = n.runs (retireLocked at_ g gen epochs) w := by
  have under : n.runs (retireListed at_ g gen epochs) w =
      n.runs ((retireLocked at_ g gen epochs).ensure unlock) w := by
    rw [retireListed, if_neg some]
    rfl
  rw [under, Network.runs, run_ensure]
  rfl

/-- What the call leaves is what it leaves under the lock, if it gets there. -/
theorem net_retire (n : Network) (at_ : Surroundings) (g : String) (w : Home) :
    (n.runs (retire at_ g) w).2 = w ∨ ∃ gen, w.db.getGeneration g = .ok gen ∧
      (n.runs (retire at_ g) w).2 = (n.runs (retireLocked at_ g gen
        ((w.db.epochRows g).filterMap EpochRow.decode)) w).2 := by
  unfold retire
  by_cases unnamed : g = ""
  · rw [if_pos unnamed]
    exact .inl rfl
  rw [if_neg unnamed, net_bind]
  cases read : w.db.getGeneration g with
  | error x =>
    obtain ⟨y, ran⟩ := net_readGeneration_fails (n := n) read
    rw [ran]
    exact .inl rfl
  | ok gen =>
    rw [net_readGeneration read]
    dsimp only
    split
    · exact .inl rfl
    split
    · exact .inl rfl
    have listed := listEpochs_ok.mpr
      ⟨unnamed, (rfl : (w.db.epochRows g).filterMap EpochRow.decode = _)⟩
    rw [net_ask, Db.answer, listed]
    dsimp only
    by_cases none : (w.db.epochRows g).filterMap EpochRow.decode = []
    · rw [retireListed, if_pos none]
      exact .inl rfl
    · rw [net_retireListed none]
      exact .inr ⟨gen, rfl, rfl⟩

/-- A draining generation gets there. -/
theorem net_retire_draining {gen : GenerationRow} (read : w.db.getGeneration g = .ok gen)
    (draining : gen.lifecycleState = .draining)
    (listed : (w.db.epochRows g).filterMap EpochRow.decode ≠ []) :
    (n.runs (retire at_ g) w).2 = (n.runs (retireLocked at_ g gen
      ((w.db.epochRows g).filterMap EpochRow.decode)) w).2 := by
  have named := (getGeneration_ok.mp read).1
  have list := listEpochs_ok.mpr ⟨named, (rfl : (w.db.epochRows g).filterMap EpochRow.decode = _)⟩
  rw [retire, if_neg named, net_bind, net_readGeneration read]
  dsimp only
  rw [if_neg (by rw [draining]; nofun), if_neg (by rw [draining]; nofun), net_ask, Db.answer, list]
  dsimp only
  rw [net_retireListed listed]

/-! ### What the call lists -/

/-- The records that phase 1 visits. -/
def listed (db : Db) (g : String) : List EpochRecord :=
  (db.epochRows g).filterMap EpochRow.decode

theorem mem_listed {db : Db} {ep : EpochRecord} (member : ep ∈ listed db g) :
    ∃ row, db.findEpoch ep.generationEpoch = some row ∧ row.generationId = g ∧
      row.decode = some ep := by
  obtain ⟨row, here, decodes⟩ := List.mem_filterMap.mp member
  obtain ⟨there, owned⟩ := mem_epochRows.mp here
  refine ⟨row, ?_, owned, decodes⟩
  rw [(decode_eq_some decodes).1]
  exact Table.find?_of_mem there

theorem listed_distinct (db : Db) (g : String) :
    ((listed db g).map EpochRecord.generationEpoch).Nodup := by
  have keys : ((db.epochRows g).map EpochRow.generationEpoch).Nodup := by
    have sorted := List.perm_insertionSort (fun a b : EpochRow => a.createdAt ≤ b.createdAt)
      (db.epochs.rows.filter (·.generationId = g))
    refine (sorted.map EpochRow.generationEpoch).nodup_iff.mpr ?_
    exact db.epochs.distinct.sublist (List.filter_sublist.map _)
  -- A record has the name of its row, and at most one record is made of a row.
  unfold listed
  generalize db.epochRows g = rows at keys
  induction rows with
  | nil => exact List.nodup_nil
  | cons row rest ih =>
    rw [List.map_cons, List.nodup_cons] at keys
    cases decodes : row.decode with
    | none =>
      rw [List.filterMap_cons_none decodes]
      exact ih keys.2
    | some ep =>
      rw [List.filterMap_cons_some decodes, List.map_cons, List.nodup_cons]
      refine ⟨fun again => keys.1 ?_, ih keys.2⟩
      obtain ⟨other, member, same⟩ := List.mem_map.mp again
      obtain ⟨row', here, decodes'⟩ := List.mem_filterMap.mp member
      rw [(decode_eq_some decodes).1, (decode_eq_some decodes').1] at same
      exact same ▸ List.mem_map_of_mem here

/-- The records that phase 1 comes to before an epoch. -/
def listedBefore (db : Db) (g e : String) : List EpochRecord :=
  (listed db g).takeWhile fun ep => ep.generationEpoch ≠ e

/-- A listed epoch splits the list, and is not met again. -/
theorem listed_split {db : Db} {row : EpochRow} {ep : EpochRecord}
    (found : db.findEpoch e = some row) (owned : row.generationId = g)
    (decodes : row.decode = some ep) :
    ∃ after, listed db g = listedBefore db g e ++ ep :: after ∧
      (∀ other ∈ listedBefore db g e, other.generationEpoch ≠ e) ∧
      ∀ other ∈ after, other.generationEpoch ≠ e := by
  have named : ep.generationEpoch = e :=
    (decode_eq_some decodes).1.trans (Db.generationEpoch_of_findEpoch found)
  have member : ep ∈ listed db g := List.mem_filterMap.mpr
    ⟨row, mem_epochRows.mpr ⟨Table.mem_of_find? found, owned⟩, decodes⟩
  have distinct := listed_distinct db g
  have others : ∀ other ∈ listedBefore db g e, other.generationEpoch ≠ e := by
    intro other before
    simpa using List.all_eq_true.mp List.all_takeWhile other before
  unfold listedBefore at others ⊢
  generalize listed db g = epochs at *
  induction epochs with
  | nil => cases member
  | cons first rest ih =>
    rw [List.map_cons, List.nodup_cons] at distinct
    by_cases here : first.generationEpoch = e
    · have same : ep = first := by
        rcases List.mem_cons.mp member with same | later
        · exact same
        · exact absurd (here.trans named.symm ▸ List.mem_map_of_mem later) distinct.1
      subst same
      refine ⟨rest, by simp [named], others, fun other later same => ?_⟩
      exact distinct.1 (named.trans same.symm ▸ List.mem_map_of_mem later)
    · have later : ep ∈ rest := (List.mem_cons.mp member).resolve_left fun same =>
        here (same ▸ named)
      rw [List.takeWhile_cons_of_pos (by simpa using here)] at others ⊢
      obtain ⟨after, split, -, apart⟩ := ih later distinct.2 fun other member =>
        others other (List.mem_cons_of_mem first member)
      exact ⟨after, by rw [List.cons_append, ← split], others, apart⟩

/-! ### One call -/

/-- The one way by which a call gets to certify an epoch that serves. -/
structure Reaches (n : Network) (at_ : Surroundings) (g e : String) (w : Home) : Prop where
  readable : ∃ row, w.db.findEpoch e = some row ∧ row.decode.isSome
  pointed : ∃ gen, w.db.findGeneration g = some gen ∧ gen.currentEpoch = some e
  earlier : ∀ ep ∈ listedBefore w.db g e, PassedOver at_ n.table g w ep
  routed : Routed n g e
  fits : (w.db.getGenerationPersistedHighWater e : ℤ) ≤ maxInteger

/-- What is under the lock, cut in two. -/
theorem net_retireLocked_append (gen : GenerationRow) (xs ys : List EpochRecord) (w : Home) :
    n.runs (retireLocked at_ g gen (xs ++ ys)) w =
      match n.runs (Prog.visit (certifyListed at_ g gen.currentEpoch) xs) w with
      | (.ok none, w') => n.runs (retireLocked at_ g gen ys) w'
      | (.ok (some hold), w') => (.ok (.blocked gen.lifecycleState hold), w')
      | (.error x, w') => (.error x, w') := by
  simp only [retireLocked, net_bind, net_otherwise, net_visit_append]
  rcases n.runs (Prog.visit (certifyListed at_ g gen.currentEpoch) xs) w with
    ⟨x | (_ | hold), w'⟩ <;> rfl

theorem net_retireLocked_cons (gen : GenerationRow) (ep : EpochRecord) (rest : List EpochRecord)
    (w : Home) :
    n.runs (retireLocked at_ g gen (ep :: rest)) w =
      match n.runs (certifyListed at_ g gen.currentEpoch ep) w with
      | (.ok none, w') => n.runs (retireLocked at_ g gen rest) w'
      | (.ok (some hold), w') => (.ok (.blocked gen.lifecycleState hold), w')
      | (.error x, w') => (.error x, w') := by
  simp only [retireLocked, net_bind, net_otherwise, Prog.visit]
  rcases n.runs (certifyListed at_ g gen.currentEpoch ep) w with ⟨x | (_ | hold), w'⟩ <;> rfl

/-- The epoch is listed as it is. -/
theorem Awaiting.listed_serving (awaiting : Awaiting g e w.db) {ep : EpochRecord}
    (member : ep ∈ listed w.db g) (same : ep.generationEpoch = e) :
    ep.processState ≠ .dead ∧ ep.retirementState ≠ .certified := by
  obtain ⟨row, found, -, serving, uncertified⟩ := awaiting
  obtain ⟨row', found', -, decodes⟩ := mem_listed member
  obtain rfl : row = row' := Option.some.inj (found.symm.trans (same ▸ found'))
  obtain ⟨-, -, process, state, -⟩ := decode_eq_some decodes
  rw [process, state, serving]
  exact ⟨nofun, uncertified⟩

/-- What the epochs after it do to a certified epoch, and the last two phases. -/
theorem spares_retireLocked {gen : GenerationRow} {epochs : List EpochRecord}
    (pointed : gen.currentEpoch = some e) (apart : ∀ ep ∈ epochs, ep.generationEpoch ≠ e) :
    (retireLocked at_ g gen epochs).Only (Spares e) := by
  refine .bind (.otherwise (.visit_mem fun ep member => ?_)
    (late_gates.mono fun _ late => late_spares late)) fun hold => ?_
  · refine only_certifyListed_at (fun named => ?_) fun _ => spares_reconciling (apart ep member)
    rw [pointed] at named
    exact absurd (Option.some.inj named).symm (apart ep member)
  · cases hold with
    | some hold => exact .pure
    | none => exact late_finalize.mono fun _ late => late_spares late

/-- Where the epochs before it are passed over, the daemon's status is what the call comes to. -/
theorem retireLocked_pointed {gen : GenerationRow} {row : EpochRow} {ep : EpochRecord}
    (sound : w.Sound) (awaiting : Awaiting g e w.db) (pointed : gen.currentEpoch = some e)
    (found : w.db.findEpoch e = some row) (owned : row.generationId = g)
    (decodes : row.decode = some ep)
    (earlier : ∀ ep ∈ listedBefore w.db g e, PassedOver at_ n.table g w ep) :
    ∃ w' after, (∀ other ∈ after, other.generationEpoch ≠ e) ∧ Awaiting g e w'.db ∧
      w'.db.getGenerationPersistedHighWater e = w.db.getGenerationPersistedHighWater e ∧
      n.runs (retireLocked at_ g gen (listed w.db g)) w =
        match n.runs (certifyQuiesced at_ g ep) w' with
        | (.ok none, w'') => n.runs (retireLocked at_ g gen after) w''
        | (.ok (some hold), w'') => (.ok (.blocked gen.lifecycleState hold), w'')
        | (.error x, w'') => (.error x, w'') := by
  obtain ⟨after, split, apart, later⟩ := listed_split found owned decodes
  have named : ep.generationEpoch = e :=
    (decode_eq_some decodes).1.trans (Db.generationEpoch_of_findEpoch found)
  have rows : ∀ ep ∈ listedBefore w.db g e, ep ∈ listed w.db g := fun ep member =>
    split ▸ List.mem_append_left _ member
  have unnamed : ∀ ep ∈ listedBefore w.db g e, gen.currentEpoch ≠ some ep.generationEpoch := by
    intro other member same
    rw [pointed] at same
    exact apart other member (Option.some.inj same).symm
  have distinct : ((listedBefore w.db g e).map EpochRecord.generationEpoch).Nodup :=
    (listed_distinct w.db g).sublist ((List.takeWhile_sublist _).map _)
  obtain ⟨w₁, visited, passed⟩ := (visit_passes at_ n sound
    (fun other member => mem_listed (rows other member)) distinct unnamed).2 earlier
  have untouched : e ∉ (listedBefore w.db g e).map EpochRecord.generationEpoch := by
    intro member
    obtain ⟨other, before, same⟩ := List.mem_map.mp member
    exact apart other before same
  have first : Awaiting g e w₁.db := by
    obtain ⟨row, found, rest⟩ := awaiting
    exact ⟨row, (passed.epochs e untouched).trans found, rest⟩
  obtain ⟨w₂, served, waits⟩ := net_certifyServing at_ n passed.sound first named
  have serving := awaiting.listed_serving (split ▸ by simp : ep ∈ listed w.db g) named
  have certifies : n.runs (certifyListed at_ g gen.currentEpoch ep) w₁ =
      n.runs (certifyQuiesced at_ g ep) w₂ := by
    rw [← served, certifyListed, if_neg serving.2, if_neg serving.1,
      if_pos (pointed.trans (congrArg some named.symm))]
  refine ⟨w₂, after, later, waits.awaiting, waits.highWater.trans (passed.highWater e untouched), ?_⟩
  rw [split, net_retireLocked_append, visited]
  dsimp only
  rw [net_retireLocked_cons, certifies]

/-- The one way leads to the certification. -/
theorem retireLocked_certifies {gen : GenerationRow} (read : w.db.getGeneration g = .ok gen)
    (sound : w.Sound) (awaiting : Awaiting g e w.db) (reaches : Reaches n at_ g e w) :
    CertifiedIn e (n.runs (retireLocked at_ g gen (listed w.db g)) w).2.db := by
  obtain ⟨-, there, -⟩ := getGeneration_ok.mp read
  obtain ⟨gen', there', pointed⟩ := reaches.pointed
  obtain rfl : gen = gen' := Option.some.inj (there.symm.trans there')
  obtain ⟨row, found, owned, -⟩ := id awaiting
  obtain ⟨row', found', readable⟩ := reaches.readable
  obtain rfl : row = row' := Option.some.inj (found.symm.trans found')
  obtain ⟨ep, decodes⟩ := Option.isSome_iff_exists.mp readable
  have shaped := (sound.shaped row (Table.mem_of_find? found)).1
  have key := Db.generationEpoch_of_findEpoch found
  obtain ⟨w', after, later, waits, highWater, ran⟩ :=
    retireLocked_pointed sound awaiting pointed found owned decodes reaches.earlier
  have certified := (net_certifyQuiesced at_ waits (key ▸ shaped)
    ((decode_eq_some decodes).1.trans key)).1 ⟨reaches.routed, highWater ▸ reaches.fits⟩
  rw [ran]
  rcases status : n.runs (certifyQuiesced at_ g ep) w' with ⟨x | (_ | hold), w''⟩ <;>
    rw [status] at certified
  · exact certified
  · exact certified.runs (spares_retireLocked pointed later)
  · exact certified

/-- Nothing but the one way certifies the epoch in a call. -/
theorem retireLocked_awaits {gen : GenerationRow} (read : w.db.getGeneration g = .ok gen)
    (sound : w.Sound) (awaiting : Awaiting g e w.db) (missed : ¬ Reaches n at_ g e w) :
    Awaiting g e (n.runs (retireLocked at_ g gen (listed w.db g)) w).2.db := by
  obtain ⟨-, there, -⟩ := getGeneration_ok.mp read
  have alive : ∀ ep ∈ listed w.db g, ep.generationEpoch = e → ep.processState ≠ .dead :=
    fun ep member same => (awaiting.listed_serving member same).1
  by_cases pointed : gen.currentEpoch = some e
  swap
  · exact awaiting.runs (passes_retireLocked alive fun ep _ named same =>
      absurd (same ▸ named) pointed)
  obtain ⟨row, found, owned, serving, uncertified⟩ := id awaiting
  cases decodes : row.decode with
  | none =>
    -- A row that cannot be read is not listed.
    refine awaiting.runs (passes_retireLocked alive fun ep member _ same => ?_)
    obtain ⟨row', found', -, decodes'⟩ := mem_listed member
    obtain rfl : row = row' := Option.some.inj (found.symm.trans (same ▸ found'))
    rw [decodes] at decodes'
    cases decodes'
  | some ep =>
    have shaped := (sound.shaped row (Table.mem_of_find? found)).1
    have key := Db.generationEpoch_of_findEpoch found
    have named := (decode_eq_some decodes).1.trans key
    by_cases earlier : ∀ ep ∈ listedBefore w.db g e, PassedOver at_ n.table g w ep
    · obtain ⟨w', after, later, waits, highWater, ran⟩ :=
        retireLocked_pointed sound awaiting pointed found owned decodes earlier
      have unmet : ¬ (Routed n g e ∧ (w'.db.getGenerationPersistedHighWater e : ℤ) ≤ maxInteger) := by
        rintro ⟨routed, fits⟩
        exact missed ⟨⟨row, found, by simp [decodes]⟩, ⟨gen, there, pointed⟩, earlier, routed,
          highWater ▸ fits⟩
      obtain ⟨⟨hold, stopped⟩, waiting⟩ :=
        (net_certifyQuiesced at_ waits (key ▸ shaped) named).2 unmet
      rw [ran]
      rcases status : n.runs (certifyQuiesced at_ g ep) w' with ⟨r, w''⟩
      rw [status] at stopped waiting
      cases stopped
      exact waiting
    · -- An epoch before it holds the call up.
      obtain ⟨after, split, apart, -⟩ := listed_split found owned decodes
      have stopped := mt (visit_passes at_ n sound (fun other member =>
        mem_listed (split ▸ List.mem_append_left _ member : other ∈ listed w.db g))
        ((listed_distinct w.db g).sublist ((List.takeWhile_sublist _).map _))
        (fun other member same => apart other member
          (Option.some.inj (pointed.symm.trans same)).symm)).1.mp earlier
      have only : (Prog.visit (certifyListed at_ g gen.currentEpoch) (listedBefore w.db g e)).Only
          (Passes n e) :=
        passes_visit (fun other member same => absurd same (apart other member))
          fun other member _ same => absurd same (apart other member)
      have waiting := awaiting.runs only
      rw [split, net_retireLocked_append]
      rcases visited : n.runs (Prog.visit (certifyListed at_ g gen.currentEpoch)
        (listedBefore w.db g e)) w with ⟨x | (_ | hold), w'⟩ <;> rw [visited] at stopped waiting
      · exact waiting
      · exact absurd rfl stopped
      · exact waiting

/-! ### Call after call -/

/-- What a call leaves. -/
def Network.retires (n : Network) (at_ : Surroundings) (g : String) (w : Home) : Home :=
  (n.runs (retire at_ g) w).2

theorem DaemonState.writes_sound {call : Call} {reply : ℕ × Json} (sound : w.Sound) :
    (DaemonState.writes call reply w).2.Sound := by
  have shaped := sound.shaped.step call
  have backed := sound.backed.step call
  unfold DaemonState.writes
  cases done : call.apply w.db with
  | error x => exact sound
  | ok db' =>
    simp only [machine, settled, done] at shaped backed
    exact ⟨shaped, backed⟩

theorem DaemonState.reply_sound {d : DaemonState} {request : DaemonRequest} (sound : w.Sound) :
    (d.reply request w).2.Sound := by
  cases request with
  | quiesce => exact writes_sound sound
  | quiesceStatus => exact sound
  | certifyEpoch certificate e' =>
    simp only [DaemonState.reply]
    split
    · exact sound
    · split
      · exact writes_sound sound
      · exact sound

theorem Network.sound (n : Network) (a : Act) (sound : w.Sound) : (n.answer a w).2.Sound := by
  obtain ⟨site, effect⟩ := a
  cases effect with
  | write call => exact ⟨sound.shaped.step call, sound.backed.step call⟩
  | time => exact ⟨sound.shaped, sound.backed⟩
  | forward transport request =>
    simp only [Network.answer]
    cases n.listens transport with
    | none => exact sound
    | some d => exact DaemonState.reply_sound sound
  | _ => exact sound

theorem only_anything {α : Type} (p : Routine α) : p.Only fun _ => True := by
  induction p with
  | done r => trivial
  | perform e next ih => exact ⟨trivial, ih⟩

theorem retires_sound (sound : w.Sound) : (n.retires at_ g w).Sound :=
  (only_anything (retire at_ g)).run_keeps Home.Sound (fun a _ _ held => n.sound a held) sound

/-- A call that does not reach the epoch leaves it waiting. -/
theorem retires_awaits (sound : w.Sound) (awaiting : Awaiting g e w.db)
    (missed : ¬ Reaches n at_ g e w) : Awaiting g e (n.retires at_ g w).db := by
  unfold Network.retires
  rcases net_retire n at_ g w with same | ⟨gen, read, same⟩
  · rw [same]
    exact awaiting
  · rw [same]
    exact retireLocked_awaits read sound awaiting missed

/-- No number of calls gets through to a daemon that the registry's handle does not lead to. -/
theorem retires_forever (sound : w.Sound) (awaiting : Awaiting g e w.db)
    (unrouted : ¬ Routed n g e) (calls : ℕ) :
    ((n.retires at_ g)^[calls] w).Sound ∧ Awaiting g e ((n.retires at_ g)^[calls] w).db := by
  induction calls with
  | zero => exact ⟨sound, awaiting⟩
  | succ calls ih =>
    rw [Function.iterate_succ_apply']
    exact ⟨retires_sound ih.1, retires_awaits ih.1 ih.2 fun reaches => unrouted reaches.routed⟩

/-- After any history, a call of `retire` on a draining generation certifies an epoch that serves
exactly when it reaches it; and where the registry's handle does not lead to its daemon, dead or
alive, no number of calls does. -/
theorem retire_progress (at_ : Surroundings) (n : Network) (history : List Incident) (g e : String)
    {gen : GenerationRow} (read : (home.after {} history).db.getGeneration g = .ok gen)
    (draining : gen.lifecycleState = .draining)
    (awaiting : Awaiting g e (home.after {} history).db) :
    (CertifiedIn e (n.retires at_ g (home.after {} history)).db ↔
      Reaches n at_ g e (home.after {} history)) ∧
    (¬ Routed n g e →
      ∀ calls, ¬ CertifiedIn e ((n.retires at_ g)^[calls] (home.after {} history)).db) := by
  have sound := sound_after history
  refine ⟨⟨fun certified => ?_, fun reaches => ?_⟩, fun unrouted calls =>
    (retires_forever sound awaiting unrouted calls).2.not_certified⟩
  · by_contra missed
    exact (retires_awaits sound awaiting missed).not_certified certified
  · have certified := retireLocked_certifies read sound awaiting reaches
    obtain ⟨row, found, readable⟩ := reaches.readable
    obtain ⟨row', found', owned, -⟩ := awaiting
    obtain rfl : row = row' := Option.some.inj (found.symm.trans found')
    obtain ⟨ep, decodes⟩ := Option.isSome_iff_exists.mp readable
    have member : ep ∈ listed (home.after {} history).db g := List.mem_filterMap.mpr
      ⟨row, mem_epochRows.mpr ⟨Table.mem_of_find? found, owned⟩, decodes⟩
    have listing : listed (home.after {} history).db g ≠ [] := List.ne_nil_of_mem member
    rw [Network.retires, net_retire_draining read draining listing]
    exact certified

/-! ### Two networks -/

/-- A generation whose only epoch serves, and then drains. -/
def drained : List Incident :=
  [.store (.createGeneration sampleGeneration none .active none (.finite 1)),
    .store (.insertEpoch firstEpoch sampleGeneration none (.finite 1)),
    .store (.casEpochServing sampleGeneration firstEpoch none (some "7")),
    .store (.setGenerationLifecycleState sampleGeneration .draining)]

/-- One daemon listens, idle, and the registry holds a handle. -/
def oneDaemon (registered : GenerationHandle) : Network where
  registered := some registered
  listens transport := if transport = "sock" then some ⟨firstEpoch, 0, 0, 0, 0⟩ else none
  reaps _ _ _ := .ok true
  releases _ _ := .ok ()
  table := nobody
  clock _ := 5

def ownHandle : GenerationHandle := ⟨sampleGeneration, firstEpoch, some "sock", none, .int 7⟩

/-- The generation that was activated after it. -/
def newerHandle : GenerationHandle := ⟨"newer", "epoch", some "other", none, .int 8⟩

theorem drained_awaiting :
    (∃ gen, (home.after {} drained).db.getGeneration sampleGeneration = .ok gen ∧
      gen.lifecycleState = .draining) ∧
    Awaiting sampleGeneration firstEpoch (home.after {} drained).db :=
  ⟨⟨_, getGeneration_ok.mpr ⟨by decide, rfl, by decide⟩, rfl⟩, promotedRow .serving,
    by decide +kernel, rfl, rfl, nofun⟩

theorem retire_progress_routed :
    CertifiedIn firstEpoch ((oneDaemon ownHandle).retires oneProcess sampleGeneration
      (home.after {} drained)).db := by
  obtain ⟨⟨gen, read, draining⟩, awaiting⟩ := drained_awaiting
  refine (retire_progress oneProcess (oneDaemon ownHandle) drained sampleGeneration firstEpoch read
    draining awaiting).1.mpr ⟨⟨promotedRow .serving, by decide +kernel, rfl⟩, ?_, ?_, ?_, ?_⟩
  · exact ⟨_, rfl, rfl⟩
  · have first : listedBefore (home.after {} drained).db sampleGeneration firstEpoch = [] := by
      decide +kernel
    rw [first]
    nofun
  · exact ⟨_, rfl, rfl, by decide⟩
  · decide +kernel

/-- The daemon is alive and idle, but the registry holds the handle of the generation activated
after it; or the daemon is dead. The epoch stays where it is, however often the call is made. -/
theorem retire_stuck :
    (∃ gen, (home.after {} drained).db.getGeneration sampleGeneration = .ok gen ∧
      gen.lifecycleState = .draining) ∧
    Awaiting sampleGeneration firstEpoch (home.after {} drained).db ∧
    (oneDaemon newerHandle).listens "sock" = some ⟨firstEpoch, 0, 0, 0, 0⟩ ∧
    ∀ n ∈ [oneDaemon newerHandle, { oneDaemon ownHandle with listens := fun _ => none }],
      ∀ calls, ¬ CertifiedIn firstEpoch ((n.retires oneProcess sampleGeneration)^[calls]
        (home.after {} drained)).db := by
  refine ⟨drained_awaiting.1, drained_awaiting.2, rfl, fun n member calls => ?_⟩
  refine (retires_forever (sound_after drained) drained_awaiting.2 ?_ calls).2.not_certified
  simp only [List.mem_cons, List.not_mem_nil, or_false] at member
  rcases member with rfl | rfl
  · rintro ⟨d, routed, -⟩
    cases routed
  · rintro ⟨d, routed, -⟩
    cases routed

end Nelix.Router
