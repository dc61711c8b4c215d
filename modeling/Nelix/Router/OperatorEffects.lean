import Nelix.Core.Traces
import Nelix.Router.Operator

/-!
# What the stages of retire perform

A stage of `retire` performs few kinds of effects. The lemmas
confine every routine to the effects of its stages; what follows `retire` among others, or through
its faults, only has to look at those.
-/
namespace Nelix.Router

open Contracts Core Store Prog Routine

/-- The stages of `retire`, by the effects they perform. -/
inductive Stage
  | asking
  | resolving
  | reaping
  | releasing
  | reconciling (generationEpoch : String)
  | certifying (generationEpoch : String)
  | serving (generationEpoch : String)
  | requesting (generationEpoch : String)
  | finalizing
  deriving DecidableEq

/-- The effects of a stage. -/
def Stage.does : Stage → Effect → Bool
  | _, .ask _ => true
  | resolving, .write (.setGenerationConfirmedHighWater ..) => true
  | reaping, .reapHolder .. => true
  | releasing, .releaseEpoch .. => true
  | reconciling e, .write (.setEpochRetirement e' .quiescing ..) => e' = e
  | reconciling _, .write (.putTerminal ..) => true
  | reconciling _, .pidAlive _ => true
  | reconciling _, .readChild _ => true
  | reconciling _, .startFingerprint _ => true
  | reconciling _, .killpg .. => true
  | reconciling _, .time => true
  | certifying e, .write (.setEpochRetirement e' .certified ..) => e' = e
  | serving e, .write (.setEpochRetirement e' .quiescing ..) => e' = e
  | serving _, .generations => true
  | serving _, .forward _ .quiesce => true
  | serving _, .forward _ .quiesceStatus => true
  | requesting _, .generations => true
  | requesting e, .forward _ (.certifyEpoch _ e') => e' = e
  | finalizing, .write (.setGenerationLifecycleState ..) => true
  | finalizing, .write (.clearCurrentEpoch _) => true
  | _, _ => false

/-- `P` admits whatever a stage does at a site. -/
def Stage.Fits (stage : Stage) (P : Act → Prop) (site : Site) : Prop :=
  ∀ effect, stage.does effect = true → P ⟨site, effect⟩

variable {P : Act → Prop} {site : Site} {stage : Stage} {at_ : Surroundings} {g epoch : String}

theorem only_ask {q : Query} (fits : stage.Fits P site) : Only P (ask site q) :=
  .perform (fits _ (by cases stage <;> rfl)) fun _ => .done

theorem only_write {call : Call} (here : P ⟨site, .write call⟩) : Only P (write site call) :=
  .perform here fun _ => .done

theorem only_warnWithFields : Only P (warnWithFields at_) := by
  unfold warnWithFields
  split
  · exact .raise
  · exact .pure

theorem only_daemonRpc {request : DaemonRequest} (fits : stage.Fits P site)
    (lists : stage.does .generations = true)
    (sends : ∀ transport, stage.does (.forward transport request) = true) :
    Only P (daemonRpc site g request) := by
  refine .bind (.perform (fits _ lists) fun _ => .done) fun gens => ?_
  split
  · exact .pure
  · split
    · exact .pure
    · refine .rescue (.bind (.perform (fits _ (sends _)) fun _ => .done) fun _ => .pure) fun x => ?_
      split
      · split
        · exact .pure
        · exact .raise
      · exact .raise

theorem only_resolveConfirmed (fits : Stage.resolving.Fits P site) :
    Only P (resolveConfirmed at_ site epoch) := by
  refine .rescue (.bind (only_ask fits) fun terminals => ?_) fun _ =>
    .bind only_warnWithFields fun _ => .pure
  dsimp only
  split
  · exact .bind (only_write (fits _ rfl)) fun _ => .pure
  · exact .pure

theorem only_reapGeneration (fits : Stage.reaping.Fits P (.reaping epoch)) :
    Only P (reapGeneration at_ g epoch) := by
  refine .rescue (.bind (only_ask fits) fun gen => .bind (only_ask fits) fun epochs =>
    .bind .done fun recorded => ?_) fun _ => .bind only_warnWithFields fun _ => .pure
  cases recorded with
  | none => exact .pure
  | some incarnation => exact .perform (fits _ rfl) fun _ => .done

/-! ### Crash reconciliation -/

section Reconciling

variable (fits : (Stage.reconciling epoch).Fits P .reconciling)

include fits

theorem only_outstandingOf {e : String} : Only P (outstandingOf e) :=
  .rescue (.bind (only_ask fits) fun _ => .pure) fun _ => .pure

theorem only_signalGroup {pgid : ℤ} {signal : Signal} {failed : String → Obstacle} :
    Only P (signalGroup pgid signal failed) := by
  refine .bind (.perform (fits _ rfl) fun _ => .done) fun result => ?_
  cases result with
  | raised exception => exact .raise
  | _ => exact .pure

theorem only_verifyGone {pgid : ℤ} : Only P (verifyGone pgid) := by
  refine .bind (.perform (fits _ rfl) fun _ => .done) fun result => ?_
  cases result with
  | raised exception => exact .raise
  | _ => exact .pure

theorem only_reapChildGroup {sessionId : String} : Only P (reapChildGroup sessionId) := by
  refine .bind (.perform (fits _ rfl) fun _ => .done) fun file => ?_
  cases file with
  | missing => exact .pure
  | malformed => exact .pure
  | undecodable => exact .raise
  | record record =>
    dsimp only
    split
    · exact .pure
    · refine .bind (.perform (fits _ rfl) fun _ => .done) fun actual => ?_
      split
      · exact .pure
      · refine .bind (only_signalGroup fits) fun obstacle => ?_
        cases obstacle with
        | some obstacle => exact .pure
        | none =>
          refine .bind (only_signalGroup fits) fun obstacle => ?_
          cases obstacle with
          | some obstacle => exact .pure
          | none => exact only_verifyGone fits

theorem only_reapChildGroups {e : String} : Only P (reapChildGroups e) := by
  refine .bind (only_outstandingOf fits) fun outstanding => ?_
  cases outstanding with
  | error obstacle => exact .pure
  | ok outstanding => exact .visit (fun _ => only_reapChildGroup fits) outstanding

theorem only_publishLost {row : StartRow} : Only P (publishLost row) := by
  refine .rescue (.bind (.perform (fits _ rfl) fun _ => .done) fun _ =>
    .bind (.perform (fits _ rfl) fun _ => .done) fun _ =>
      .bind (only_write (fits _ rfl)) fun _ => .pure) fun _ => .pure

theorem only_publishAll {outstanding : List StartRow} :
    Only P (Prog.visit publishLost outstanding) :=
  .visit (fun _ => only_publishLost fits) outstanding

theorem only_closeReconciled {ep : EpochRecord} (named : ep.generationEpoch = epoch) :
    Only P (closeAdmission .reconciling ep) := by
  unfold closeAdmission
  split
  · exact only_write (fits _ (by simp [Stage.does, named]))
  · exact .pure

theorem only_reconcileDead {ep : EpochRecord} (named : ep.generationEpoch = epoch)
    (certifies : (Stage.certifying epoch).Fits P .reconciling) :
    Only P (reconcileDead g ep) := by
  refine .bind (only_closeReconciled fits named) fun _ =>
    .bind (only_reapChildGroups fits) fun obstacle => ?_
  cases obstacle with
  | some obstacle => exact .pure
  | none =>
    refine .bind (only_outstandingOf fits) fun outstanding => ?_
    cases outstanding with
    | error obstacle => exact .pure
    | ok outstanding =>
      refine .bind (only_publishAll fits) fun obstacle => ?_
      cases obstacle with
      | some obstacle => exact .pure
      | none =>
        exact .bind (only_ask fits) fun _ =>
          .bind (only_write (certifies _ (by simp [Stage.does, named]))) fun _ => .pure

theorem only_crashReconcileEpoch (certifies : (Stage.certifying epoch).Fits P .reconciling) :
    Only P (crashReconcileEpoch at_ g epoch) := by
  refine .bind (only_ask fits) fun epochs => ?_
  split
  · exact .pure
  · rename_i ep found
    split
    · exact .pure
    · split
      · exact .pure
      · refine .bind (.perform (fits _ rfl) fun _ => .done) fun alive => ?_
        split
        · exact .pure
        · exact only_reconcileDead fits (by simpa using List.find?_some found) certifies

end Reconciling

/-! ### Phase 1 -/

theorem only_closeAdmission {ep : EpochRecord}
    (fits : (Stage.serving ep.generationEpoch).Fits P site) : Only P (closeAdmission site ep) := by
  unfold closeAdmission
  split
  · exact only_write (fits _ (by simp [Stage.does]))
  · exact .pure

theorem only_confirmedReaches (fits : stage.Fits P .retiring) :
    Only P (confirmedReaches g epoch) :=
  .bind (only_ask fits) fun _ => .bind (only_ask fits) fun _ => .pure

theorem only_quiesce (fits : (Stage.serving epoch).Fits P site) :
    Only P (daemonRpc site g .quiesce) := only_daemonRpc fits rfl fun _ => rfl

theorem only_quiesceStatus (fits : (Stage.serving epoch).Fits P site) :
    Only P (daemonRpc site g .quiesceStatus) := only_daemonRpc fits rfl fun _ => rfl

theorem only_certify {certificate : String} (fits : (Stage.requesting epoch).Fits P site) :
    Only P (daemonRpc site g (.certifyEpoch certificate epoch)) :=
  only_daemonRpc fits rfl fun _ => by simp [Stage.does]

theorem only_certifyServing {ep : EpochRecord}
    (serving : (Stage.serving ep.generationEpoch).Fits P .retiring)
    (requesting : (Stage.requesting ep.generationEpoch).Fits P .retiring)
    (resolving : Stage.resolving.Fits P .certifying) : Only P (certifyServing at_ g ep) := by
  refine .bind (only_closeAdmission serving) fun _ => .bind (only_quiesce serving) fun _ =>
    .bind (only_resolveConfirmed resolving) fun resolved => ?_
  split
  · exact .pure
  refine .bind (only_quiesceStatus serving) fun status => .bind .done fun quiesced => ?_
  split
  · exact .pure
  refine .bind (only_certify requesting) fun _ => .bind (only_ask serving) fun refreshed => ?_
  split
  · exact .pure
  refine .bind (only_resolveConfirmed resolving) fun resolved => ?_
  split
  · exact .pure
  refine .bind (only_confirmedReaches serving) fun reaches => ?_
  split <;> exact .pure

/-- A listed epoch is reconciled only when it is listed dead, and served only when the pointer names
it. -/
theorem only_certifyListed_at {current : Option String} {ep : EpochRecord}
    (served : current = some ep.generationEpoch →
      (Stage.serving ep.generationEpoch).Fits P .retiring ∧
        (Stage.requesting ep.generationEpoch).Fits P .retiring ∧
          Stage.resolving.Fits P .certifying)
    (reconciled : ep.processState = .dead →
      (Stage.reconciling ep.generationEpoch).Fits P .reconciling ∧
        (Stage.certifying ep.generationEpoch).Fits P .reconciling) :
    Only P (certifyListed at_ g current ep) := by
  unfold certifyListed
  split
  · exact .pure
  split
  · obtain ⟨reconciling, certifying⟩ := reconciled ‹_›
    refine .bind (only_crashReconcileEpoch reconciling certifying) fun obstacle => ?_
    cases obstacle <;> exact .pure
  split
  · obtain ⟨serving, requesting, resolving⟩ := served ‹_›
    exact only_certifyServing serving requesting resolving
  · exact .pure

section Phase1

variable (serving : ∀ e, (Stage.serving e).Fits P .retiring)
  (requesting : ∀ e, (Stage.requesting e).Fits P .retiring)
  (resolving : Stage.resolving.Fits P .certifying)
  (reconciling : ∀ e, (Stage.reconciling e).Fits P .reconciling)
  (certifying : ∀ e, (Stage.certifying e).Fits P .reconciling)

include serving requesting resolving reconciling certifying

theorem only_certifyListed {current : Option String} {ep : EpochRecord} :
    Only P (certifyListed at_ g current ep) :=
  only_certifyListed_at (fun _ => ⟨serving _, requesting _, resolving⟩)
    fun _ => ⟨reconciling _, certifying _⟩

theorem only_certifyVisit {current : Option String} {epochs : List EpochRecord} :
    Only P (Prog.visit (certifyListed at_ g current) epochs) :=
  .visit (fun _ => only_certifyListed serving requesting resolving reconciling certifying) _

end Phase1

/-! ### Phase 2 -/

theorem only_reapListed {ep : EpochRecord}
    (reaping : ∀ epoch, Stage.reaping.Fits P (.reaping epoch)) :
    Only P (reapListed at_ g ep) := by
  unfold reapListed
  split
  · exact .pure
  refine .bind (only_reapGeneration (reaping _)) fun reaped => ?_
  split <;> exact .pure

theorem only_releaseListed {ep : EpochRecord} (releasing : Stage.releasing.Fits P .retiring) :
    Only P (releaseListed at_ g ep) := by
  unfold releaseListed
  split
  · exact .rescue (.bind (.perform (releasing _ rfl) fun _ => .done) fun _ => .pure) fun _ => .pure
  split <;> exact .pure

theorem only_confirmListed {ep : EpochRecord} (resolving : Stage.resolving.Fits P .confirming) :
    Only P (confirmListed at_ ep) :=
  .bind (only_resolveConfirmed resolving) fun _ => .pure

theorem only_oracle (asking : Stage.asking.Fits P .judging) :
    Only P (generationRetirementOracleBlockers (ask .judging) g) := by
  have each : ∀ ep, Only P (epochBlockers (ask .judging) ep) := by
    intro ep
    unfold epochBlockers
    split
    · exact .pure
    · exact .bind (only_ask asking) fun _ => .pure
  have listed : ∀ epochs, Only P (listedBlockers (ask .judging) epochs) := by
    intro epochs
    induction epochs with
    | nil => exact .pure
    | cons ep rest ih => exact .bind (each ep) fun _ => .bind ih fun _ => .pure
  refine .bind (only_ask asking) fun gen => ?_
  dsimp only
  refine .bind (only_ask asking) fun epochs => ?_
  split
  · exact .pure
  · exact .bind (listed epochs) fun _ => .pure

theorem only_judge (asking : Stage.asking.Fits P .judging) : Only P (judge g) := by
  refine .bind (only_oracle asking) fun blockers => ?_
  split <;> exact .pure

theorem only_reapAll (asking : Stage.asking.Fits P .retiring)
    (reaping : ∀ epoch, Stage.reaping.Fits P (.reaping epoch)) : Only P (reapAll at_ g) :=
  .bind (only_ask asking) fun _ => .visit (fun _ => only_reapListed reaping) _

theorem only_releaseAll (releasing : Stage.releasing.Fits P .retiring) :
    Only P (releaseAll at_ g) :=
  .bind (only_ask releasing) fun _ => .visit (fun _ => only_releaseListed releasing) _

theorem only_confirmAll (asking : Stage.asking.Fits P .retiring)
    (resolving : Stage.resolving.Fits P .confirming) : Only P (confirmAll at_ g) :=
  .bind (only_ask asking) fun _ => .visit (fun _ => only_confirmListed resolving) _

theorem only_gates (releasing : Stage.releasing.Fits P .retiring)
    (reaping : ∀ epoch, Stage.reaping.Fits P (.reaping epoch))
    (resolving : Stage.resolving.Fits P .confirming) (asking : Stage.asking.Fits P .judging) :
    Only P (gates at_ g) := by
  have listing : Stage.asking.Fits P .retiring := fun effect does =>
    releasing effect (by cases effect <;> simp_all [Stage.does])
  exact .otherwise (only_reapAll listing reaping) <|
    .otherwise (only_releaseAll releasing) <|
      .otherwise (only_confirmAll listing resolving) (only_judge asking)

/-! ### Phase 3 -/

theorem only_advanceLifecycle {source target : Lifecycle}
    (fits : Stage.finalizing.Fits P .retiring) : Only P (advanceLifecycle g source target) := by
  refine .bind (only_ask fits) fun gen => ?_
  split
  · exact only_write (fits _ rfl)
  · exact .pure

theorem only_dropPointer (fits : Stage.finalizing.Fits P .retiring) : Only P (dropPointer g) := by
  refine .bind (only_ask fits) fun gen => ?_
  split
  · exact only_write (fits _ rfl)
  · exact .pure

theorem only_finalize (fits : Stage.finalizing.Fits P .retiring) : Only P (finalize g) :=
  .bind (only_dropPointer fits) fun _ => .bind (only_advanceLifecycle fits) fun _ =>
    .bind (only_advanceLifecycle fits) fun _ => .bind (only_advanceLifecycle fits) fun _ =>
      .bind (only_ask fits) fun _ => .pure

theorem only_readGeneration (asking : Stage.asking.Fits P .reading) :
    Only P (readGeneration g) := by
  refine .rescue (only_ask asking) fun x => ?_
  split
  · split
    · exact .raise
    · exact .raise
  · exact .raise

/-! ### The last two phases -/

/-- The stage belongs to the last two phases. -/
def Stage.late : Stage → Bool
  | reconciling _ | certifying _ | serving _ | requesting _ => false
  | _ => true

def Late (a : Act) : Prop := ∃ stage : Stage, stage.does a.effect = true ∧ stage.late = true

theorem fits_late (late : stage.late = true) : stage.Fits Late site :=
  fun _ does => ⟨stage, does, late⟩

theorem late_gates : (gates at_ g).Only Late :=
  only_gates (fits_late rfl) (fun _ => fits_late rfl) (fits_late rfl) (fits_late rfl)

theorem late_finalize : (finalize g).Only Late := only_finalize (fits_late rfl)

end Nelix.Router
