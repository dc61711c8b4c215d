import Nelix.Daemon.BeliefScreen
import Mathlib.Tactic.Linarith

/-!
# A frozen screen

Every timer that keeps a screen-driven engine silent was set by the engine itself, at most its own
duration ahead of the clock. So from the tick on from which the screen stands still each of them
runs out, none is set anew, and the engine comes to publish something.
-/
namespace Nelix.Daemon

namespace BeliefConfig

variable (cfg : BeliefConfig)

/-- No duration is negative: the loader puts the default in the place of one that is. -/
structure Valid : Prop where
  idleConfirmWindow : 0 ≤ cfg.idleConfirmWindow
  postSubmitGrace : 0 ≤ cfg.postSubmitGrace
  echoStuckAfter : 0 ≤ cfg.echoStuckAfter
  withdrawnCooldown : 0 ≤ cfg.withdrawnCooldown
  liveBudget : 0 ≤ cfg.liveBudget
  staleBudget : 0 ≤ cfg.staleBudget
  unknownBudget : 0 ≤ cfg.unknownBudget
  hookStartupGrace : 0 ≤ cfg.hookStartupGrace

/-- The budgets of the watchdog. -/
def budgets : Time := cfg.liveBudget + cfg.staleBudget + cfg.unknownBudget

/-- All budgets and grace periods that can keep the screen path silent. -/
def patience : Time :=
  cfg.budgets + cfg.hookStartupGrace + cfg.echoStuckAfter + cfg.postSubmitGrace +
    cfg.withdrawnCooldown + cfg.idleConfirmWindow

variable {cfg}

theorem Valid.budgets_nonneg (valid : cfg.Valid) : 0 ≤ cfg.budgets :=
  add_nonneg (add_nonneg valid.liveBudget valid.staleBudget) valid.unknownBudget

theorem Valid.budget_le (valid : cfg.Valid) (fresh : Liveness) (reason : Option BusyReason) :
    BeliefEngine.budget cfg fresh reason ≤ cfg.budgets := by
  have live := valid.liveBudget
  have stale := valid.staleBudget
  have unknown := valid.unknownBudget
  unfold BeliefEngine.budget budgets
  cases fresh with
  | stale => dsimp only; linarith
  | live => dsimp only; linarith
  | unknown =>
    dsimp only
    split <;> linarith

end BeliefConfig

namespace BeliefEngine

/-! ### The timers -/

/-- The fields that decide how long the screen path stays silent. -/
structure Timers where
  semanticFp : Option String
  semanticChangeTs : Option Time
  candidateFp : Option String
  candidateSince : Option Time
  nextNagAt : Option Time
  postSubmitActive : Bool
  postSubmitGraceUntil : Option Time
  withdrawnCooldownUntil : Option Time
  echoSince : Option Time
  hookStartupAt : Option Time

def timers (e : BeliefEngine) : Timers where
  semanticFp := e.semanticFp
  semanticChangeTs := e.semanticChangeTs
  candidateFp := e.candidateFp
  candidateSince := e.candidateSince
  nextNagAt := e.nextNagAt
  postSubmitActive := e.postSubmitActive
  postSubmitGraceUntil := e.postSubmitGraceUntil
  withdrawnCooldownUntil := e.withdrawnCooldownUntil
  echoSince := e.echoSince
  hookStartupAt := e.hookStartupAt

/-- Every timer was set by the engine at `now` at the latest, the echo's clock by `echoBy`. -/
structure Timers.By (cfg : BeliefConfig) (now echoBy : Time) (t : Timers) : Prop where
  semantic : t.semanticFp.isSome → ∃ s, t.semanticChangeTs = some s ∧ s ≤ now
  candidate : t.candidateFp.isSome → ∃ s, t.candidateSince = some s ∧ s ≤ now
  nag : ∀ s, t.nextNagAt = some s → s ≤ now + cfg.budgets
  grace : t.postSubmitActive = true →
    ∃ s, t.postSubmitGraceUntil = some s ∧ s ≤ now + cfg.postSubmitGrace
  cooldown : ∀ s, t.withdrawnCooldownUntil = some s → s ≤ now + cfg.withdrawnCooldown
  echo : ∀ s, t.echoSince = some s → s ≤ echoBy
  startup : ∀ s, t.hookStartupAt = some s → s ≤ now

section Frames

variable (cfg : BeliefConfig) (e : BeliefEngine) (obs : Observation) (now : Time)

@[simp] theorem setControl_timers (control : ControlState) (phase : Phase) :
    (e.setControl control phase).timers = e.timers := rfl

@[simp] theorem setPhase_timers (phase : Phase) : (e.setPhase phase).timers = e.timers := rfl

@[simp] theorem setIntervention_timers (active : Bool) :
    (e.setIntervention active).timers = e.timers := rfl

@[simp] theorem refreshState_timers : (refreshState cfg e obs now).timers = e.timers := rfl

@[simp] theorem publishDecision_timers (key : DecisionKey) :
    (e.publishDecision obs key).1.timers = e.timers := rfl

@[simp] theorem suppressed_timers (reason : SuppressReason) :
    (e.suppressed reason).timers = e.timers := by
  unfold suppressed
  split <;> rfl

@[simp] theorem trackHeartbeat_timers : (e.trackHeartbeat obs now).timers = e.timers := by
  unfold trackHeartbeat
  split
  · rfl
  · split <;> rfl

@[simp] theorem maybeExpireStartupGrace_timers :
    (maybeExpireStartupGrace cfg e now).timers = e.timers := by
  rcases maybeExpireStartupGrace_cases cfg e now with same | ⟨-, same⟩ <;> simp [same, timers]

end Frames

/-! ### Every call sets its timers by its own clock -/

section Calls

variable {cfg : BeliefConfig} {e : BeliefEngine} {now : Time}

theorem Timers.By.mono {t : Timers} {now' echoBy echoBy' : Time} (set : t.By cfg now echoBy)
    (later : now ≤ now') (echoes : echoBy ≤ echoBy') : t.By cfg now' echoBy' where
  semantic known := by
    obtain ⟨s, at', le⟩ := set.semantic known
    exact ⟨s, at', le.trans later⟩
  candidate known := by
    obtain ⟨s, at', le⟩ := set.candidate known
    exact ⟨s, at', le.trans later⟩
  nag s at' := by linarith [set.nag s at']
  grace active := by
    obtain ⟨s, at', le⟩ := set.grace active
    exact ⟨s, at', by linarith⟩
  cooldown s at' := by linarith [set.cooldown s at']
  echo s at' := (set.echo s at').trans echoes
  startup s at' := (set.startup s at').trans later

theorem fresh_by (echoBy : Time) : (({} : BeliefEngine)).timers.By cfg now echoBy where
  semantic := nofun
  candidate := nofun
  nag := nofun
  grace := nofun
  cooldown := nofun
  echo := nofun
  startup := nofun

variable (obs : Observation)

theorem trackSemantic_by {echoBy : Time} (set : e.timers.By cfg now echoBy) :
    (e.trackSemantic obs now).timers.By cfg now echoBy := by
  unfold trackSemantic
  split
  · exact { set with
      semantic := fun _ => ⟨now, rfl, le_refl _⟩
      nag := nofun }
  · exact set

theorem updatePostSubmit_by {by' echoBy : Time} (set : e.timers.By cfg by' echoBy) :
    (updatePostSubmit cfg e obs now).timers.By cfg by' echoBy := by
  have baseline : (e.postSubmitBaseline obs).timers = e.timers := by
    unfold postSubmitBaseline
    split <;> rfl
  have ended : ∀ reason, ((e.postSubmitBaseline obs).endPostSubmit reason).timers.By cfg by'
      echoBy := fun reason => by
    have kept : (e.postSubmitBaseline obs).timers.By cfg by' echoBy := baseline ▸ set
    exact { kept with grace := nofun }
  unfold updatePostSubmit
  split
  · exact set
  · dsimp only
    split
    · exact ended _
    · split
      · exact ended _
      · split
        · exact ended _
        · exact baseline ▸ set

theorem withdraw_by {echoBy : Time} (set : e.timers.By cfg now echoBy) (reason : WithdrawReason) :
    (withdraw cfg e reason now).1.timers.By cfg now echoBy := by
  unfold withdraw
  split
  · exact { set with
      cooldown := fun s at' => by
        have same : now + cfg.withdrawnCooldown = s := Option.some.inj at'
        exact same.ge }
  · exact set

theorem escalate_by {echoBy : Time} (valid : cfg.Valid) (set : e.timers.By cfg now echoBy)
    (phase : Phase) (hint : Hint) :
    (escalate cfg e obs now phase hint).1.timers.By cfg now echoBy := by
  unfold escalate
  dsimp only
  split
  · exact { set with
      nag := fun s at' => by
        have same : now + budget cfg (liveness cfg (e.setIntervention true) obs now) obs.busyReason
            = s := Option.some.inj at'
        have within := valid.budget_le (liveness cfg (e.setIntervention true) obs now)
          obs.busyReason
        linarith }
  · exact set

theorem watchdog_by {echoBy : Time} (valid : cfg.Valid) (set : e.timers.By cfg now echoBy) :
    (watchdog cfg e obs now).1.timers.By cfg now echoBy := by
  unfold watchdog
  split
  · exact set
  · exact escalate_by obs valid set _ _

theorem trackCandidate_by {echoBy : Time} (set : e.timers.By cfg now echoBy) :
    (e.trackCandidate obs now).timers.By cfg now echoBy := by
  unfold trackCandidate
  dsimp only
  split
  · exact { set with candidate := fun _ => ⟨now, rfl, le_refl _⟩ }
  · exact set

theorem clockEcho_by (set : e.timers.By cfg now now) : (e.clockEcho now).timers.By cfg now now := by
  unfold clockEcho
  split
  · exact { set with
      echo := fun s at' => by
        have same : now = s := Option.some.inj at'
        exact same.ge }
  · exact set

theorem confirmFreeText_by (valid : cfg.Valid) (set : e.timers.By cfg now now)
    (key : DecisionKey) : (confirmFreeText cfg e obs now key).1.timers.By cfg now now := by
  unfold confirmFreeText
  split
  · dsimp only
    split
    · rw [suppressed_timers]
      exact clockEcho_by set
    · exact escalate_by obs valid (clockEcho_by set) _ _
  · have cleared : e.clearEcho.timers.By cfg now now := { set with echo := nofun }
    dsimp only
    split
    · rwa [suppressed_timers]
    · split
      · rwa [suppressed_timers]
      · split
        · rwa [suppressed_timers]
        · rwa [publishDecision_timers]

theorem offerPrompt_by (valid : cfg.Valid) (set : e.timers.By cfg now now) :
    (offerPrompt cfg e obs now).1.timers.By cfg now now := by
  have tracked : ((e.trackCandidate obs now).setPhase .pauseCandidate).timers.By cfg now now :=
    trackCandidate_by obs set
  unfold offerPrompt
  dsimp only
  split
  · rwa [publishDecision_timers]
  · split
    · rwa [suppressed_timers]
    · exact confirmFreeText_by obs valid tracked _

theorem onPrompt_by (valid : cfg.Valid) (set : e.timers.By cfg now now) :
    (onPrompt cfg e obs now).1.timers.By cfg now now := by
  have offered : ∀ e : BeliefEngine, e.timers.By cfg now now →
      (if e.publishedKey.isSome then (e.setPhase .pauseCandidate, [])
        else offerPrompt cfg e obs now).1.timers.By cfg now now := by
    intro e set
    split
    · exact set
    · exact offerPrompt_by obs valid set
  refine offered _ ?_
  split
  · exact withdraw_by (e := e.setIntervention false) set _
  · exact set

theorem onBusy_by (valid : cfg.Valid) (set : e.timers.By cfg now now) :
    (onBusy cfg e obs now).1.timers.By cfg now now := by
  have left : (withdraw cfg e .turnResumed now).1.leavePrompt.timers.By cfg now now :=
    { withdraw_by set .turnResumed with
      candidate := nofun
      echo := nofun }
  exact watchdog_by obs valid left

theorem tickScreen_by (valid : cfg.Valid) (set : e.timers.By cfg now now) :
    (tickScreen cfg e obs now).1.timers.By cfg now now := by
  have updated : (updatePostSubmit cfg e obs now).timers.By cfg now now :=
    updatePostSubmit_by obs set
  unfold tickScreen
  dsimp only
  rw [refreshState_timers]
  split
  · exact onPrompt_by obs valid updated
  · exact onBusy_by obs valid updated

theorem track_by {echoBy : Time} (set : e.timers.By cfg now echoBy) :
    (e.track obs now).timers.By cfg now echoBy := by
  rw [track, trackHeartbeat_timers]
  exact trackSemantic_by obs set

end Calls

/-! ### One tick of a frozen screen -/

/-- The engine shows a decision, or published something. -/
def Woken (r : BeliefEngine × List Action) : Prop :=
  r.1.publishedKey.isSome ∨ ∃ a ∈ r.2, a.isPublish = true

/-- After a silent tick at `now` of the screen that stands still since `t₀`: nothing is published,
no timer was set anew, and the echo's clock runs or the startup grace still does. -/
structure Rest (cfg : BeliefConfig) (obs : Observation) (t₀ g now : Time) (e : BeliefEngine) :
    Prop where
  unpublished : e.publishedKey = none
  set : e.timers.By cfg t₀ (t₀ + cfg.hookStartupGrace + g)
  semantic : e.timers.semanticFp = some obs.semanticFp
  candidate : obs.promptKind = .freeText →
    e.timers.candidateFp = some (orFp obs.promptFp obs.semanticFp)
  echo : obs.promptKind = .freeText → obs.submittedEchoPresent = true →
    e.timers.echoSince.isSome ∨ now < t₀ + cfg.hookStartupGrace

/-- What a tick at `now` finds: it is the first one on this screen, or the last one rested. -/
structure Primed (cfg : BeliefConfig) (obs : Observation) (t₀ g now : Time) (e : BeliefEngine) :
    Prop where
  set : e.timers.By cfg t₀ (t₀ + cfg.hookStartupGrace + g)
  published : now = t₀ ∨ e.publishedKey = none
  candidate : obs.promptKind = .freeText →
    now = t₀ ∨ e.timers.candidateFp = some (orFp obs.promptFp obs.semanticFp)
  echo : obs.promptKind = .freeText → obs.submittedEchoPresent = true →
    e.timers.echoSince.isSome ∨ now ≤ t₀ + cfg.hookStartupGrace + g

section Ticks

variable {cfg : BeliefConfig} {e : BeliefEngine} {t₀ g : Time} (obs : Observation) (now : Time)

variable {obs now} in
theorem Rest.frame {e' : BeliefEngine} (rest : Rest cfg obs t₀ g now e)
    (timers : e'.timers = e.timers) (published : e'.publishedKey = e.publishedKey) :
    Rest cfg obs t₀ g now e' := by
  obtain ⟨unpublished, set, semantic, candidate, echo⟩ := rest
  exact ⟨published.trans unpublished, timers ▸ set, timers ▸ semantic, timers ▸ candidate,
    timers ▸ echo⟩

/-- An advisory that is not due yet waits for a nag's budget at most. -/
theorem escalate_silent {echoBy : Time} (set : e.timers.By cfg t₀ echoBy) (phase : Phase)
    (hint : Hint) :
    (∃ a ∈ (escalate cfg e obs now phase hint).2, a.isPublish = true) ∨
      escalate cfg e obs now phase hint = (e.setIntervention true, []) ∧
        now < t₀ + cfg.budgets := by
  unfold escalate
  dsimp only
  split
  · exact .inl ⟨_, List.mem_singleton_self _, rfl⟩
  · next undue =>
    refine .inr ⟨rfl, ?_⟩
    cases next : e.nextNagAt with
    | none => simp [nagDue, setIntervention, next] at undue
    | some s =>
      have due := set.nag s next
      simp only [nagDue, setIntervention, next, reached, Bool.or_eq_true, decide_eq_true_eq,
        beq_iff_eq, reduceCtorEq, false_or, not_le] at undue
      linarith

theorem watchdog_silent (valid : cfg.Valid) {echoBy : Time} (set : e.timers.By cfg t₀ echoBy)
    (semantic : e.timers.semanticFp.isSome) :
    (∃ a ∈ (watchdog cfg e obs now).2, a.isPublish = true) ∨
      (watchdog cfg e obs now).1.timers = e.timers ∧
        (watchdog cfg e obs now).1.publishedKey = e.publishedKey ∧ now < t₀ + cfg.budgets := by
  unfold watchdog
  split
  · next patient =>
    obtain ⟨s, at', le⟩ := set.semantic semantic
    have changed : e.semanticChangeTs = some s := at'
    have within := valid.budget_le (liveness cfg e obs now) obs.busyReason
    simp only [quiet, changed] at patient
    exact .inr ⟨rfl, rfl, by linarith⟩
  · rcases escalate_silent obs now set .suspectedHung .suspectedHung with
      nagged | ⟨silent, early⟩
    · exact .inl nagged
    · exact .inr ⟨by rw [silent]; rfl, by rw [silent]; rfl, early⟩

variable {obs now} (valid : cfg.Valid)

include valid

/-- The free-text tail: whatever holds the publish back runs out. -/
theorem confirmFreeText_silent (gap : 0 ≤ g) (kind : obs.promptKind = .freeText)
    (primed : Primed cfg obs t₀ g now e) (unpublished : e.publishedKey = none)
    (semantic : e.timers.semanticFp = some obs.semanticFp)
    (candidate : e.timers.candidateFp = some (orFp obs.promptFp obs.semanticFp))
    (key : DecisionKey) :
    Woken (confirmFreeText cfg e obs now key) ∨
      Rest cfg obs t₀ g now (confirmFreeText cfg e obs now key).1 ∧
        now < t₀ + cfg.patience + g := by
  obtain ⟨set, -, -, echo⟩ := primed
  have budgets := valid.budgets_nonneg
  obtain ⟨confirm, grace, stuck, cooldown, -, -, -, startup⟩ := valid
  have silent : ∀ {e' : BeliefEngine} (reason : SuppressReason), Rest cfg obs t₀ g now e' →
      Rest cfg obs t₀ g now (e'.suppressed reason) := fun reason rest =>
    rest.frame (suppressed_timers _ reason) (publishedKey_of_core (suppressed_core _ reason))
  unfold confirmFreeText BeliefConfig.patience
  split
  · next present =>
    -- the echo's clock runs from this tick on at the latest
    obtain ⟨s, clocked, le⟩ : ∃ s, (e.clockEcho now).echoSince = some s ∧
        s ≤ t₀ + cfg.hookStartupGrace + g := by
      cases since : e.echoSince with
      | none =>
        have early := (echo kind present).resolve_left (by simp [timers, since])
        exact ⟨now, by simp [clockEcho, since], early⟩
      | some s => exact ⟨s, by simp [clockEcho, since], set.echo s since⟩
    have rest : Rest cfg obs t₀ g now (e.clockEcho now) := by
      have others : (e.clockEcho now).timers = { e.timers with echoSince := some s } := by
        rw [← clocked]
        unfold clockEcho
        split <;> rfl
      refine ⟨(publishedKey_of_core (clockEcho_core e now)).trans unpublished, ?_, ?_, ?_, ?_⟩
      · rw [others]
        exact { set with echo := fun s' at' => by cases at'; exact le }
      · rw [others]
        exact semantic
      · rw [others]
        exact fun _ => candidate
      · rw [others]
        exact fun _ _ => .inl rfl
    dsimp only
    split
    · next young =>
      refine .inr ⟨silent _ rest, ?_⟩
      simp only [elapsed, clocked, decide_eq_true_eq, not_le] at young
      linarith
    · rcases escalate_silent obs now rest.set .submitUnconfirmed
        .submitUnconfirmed with nagged | ⟨quiet, early⟩
      · exact .inl (.inr nagged)
      · refine .inr ⟨?_, by linarith⟩
        rw [escalateStuckInput, quiet]
        exact rest.frame rfl rfl
  · next absent =>
    have rest : Rest cfg obs t₀ g now e.clearEcho :=
      ⟨unpublished, { set with echo := nofun }, semantic, fun _ => candidate,
        fun _ present => absurd present absent⟩
    dsimp only
    split
    · next held =>
      refine .inr ⟨silent _ rest, ?_⟩
      obtain ⟨s, upTo, le⟩ := set.grace held.1
      have upTo : e.clearEcho.postSubmitGraceUntil = some s := upTo
      have early := held.2
      simp only [reached, upTo, decide_eq_true_eq, not_le] at early
      linarith
    · split
      · next held =>
        refine .inr ⟨silent _ rest, ?_⟩
        obtain ⟨-, running, early⟩ := held
        obtain ⟨s, upTo⟩ := Option.ne_none_iff_exists'.mp running
        have le := set.cooldown s upTo
        simp only [reached, upTo, decide_eq_true_eq, not_le] at early
        linarith
      · split
        · next held =>
          refine .inr ⟨silent _ rest, ?_⟩
          obtain ⟨s, since, le⟩ := set.candidate (by simp [candidate])
          have since : e.clearEcho.candidateSince = some s := since
          simp only [elapsed, since, decide_eq_true_eq, not_le] at held
          linarith
        · exact .inl (.inl rfl)

/-- A prompt that nothing covers is published, or waits for a timer that runs out. -/
theorem offerPrompt_silent (gap : 0 ≤ g)
    (prompt : obs.promptKind = .freeText ∨ obs.promptKind = .modalChoice ∨
      obs.promptKind = .permissionChoice)
    (primed : Primed cfg obs t₀ g now e) (unpublished : e.publishedKey = none)
    (semantic : e.timers.semanticFp = some obs.semanticFp) :
    Woken (offerPrompt cfg e obs now) ∨
      Rest cfg obs t₀ g now (offerPrompt cfg e obs now).1 ∧ now < t₀ + cfg.patience + g := by
  have tracked : obs.promptKind = .freeText →
      Primed cfg obs t₀ g now ((e.trackCandidate obs now).setPhase .pauseCandidate) ∧
        ((e.trackCandidate obs now).setPhase .pauseCandidate).timers.semanticFp =
          some obs.semanticFp ∧
        ((e.trackCandidate obs now).setPhase .pauseCandidate).timers.candidateFp =
          some (orFp obs.promptFp obs.semanticFp) := by
    intro kind
    rw [setPhase_timers]
    by_cases same : e.candidateFp = some (orFp obs.promptFp obs.semanticFp)
    · have kept : e.trackCandidate obs now = e := by simp [trackCandidate, same]
      rw [kept]
      exact ⟨⟨primed.set, primed.published, primed.candidate, primed.echo⟩, semantic, same⟩
    · -- a new candidate comes with the first tick of the frozen screen only
      have first : now = t₀ := (primed.candidate kind).resolve_right same
      have fresh : e.trackCandidate obs now =
          { e with
            candidateFp := some (orFp obs.promptFp obs.semanticFp)
            candidateSince := some now } := by
        simp [trackCandidate, Ne.symm same]
      rw [fresh]
      exact ⟨⟨{ primed.set with candidate := fun _ => ⟨now, rfl, first.le⟩ }, .inl first,
        fun _ => .inl first, primed.echo⟩, semantic, rfl⟩
  have unpublished' :
      ((e.trackCandidate obs now).setPhase .pauseCandidate).publishedKey = none :=
    (publishedKey_of_core (by simp)).trans unpublished
  have waits : ∀ e' : BeliefEngine, obs.promptKind = .freeText → Primed cfg obs t₀ g now e' →
      e'.publishedKey = none → e'.timers.semanticFp = some obs.semanticFp →
      e'.timers.candidateFp = some (orFp obs.promptFp obs.semanticFp) →
      inHookStartupGrace cfg e' now = true →
      Rest cfg obs t₀ g now (e'.suppressed .hookStartupGrace) ∧ now < t₀ + cfg.patience + g := by
    intro e' kind primed unpublished semantic candidate covered
    -- the startup grace was armed before the screen froze
    obtain ⟨armed, startupAt, young⟩ : ∃ armed, e'.hookStartupAt = some armed ∧
        now - armed < cfg.hookStartupGrace := by
      cases startupAt : e'.hookStartupAt with
      | none => simp [inHookStartupGrace, startupAt] at covered
      | some armed =>
        simp only [inHookStartupGrace, startupAt, Bool.and_eq_true, decide_eq_true_eq] at covered
        exact ⟨armed, rfl, covered.2⟩
    have before := primed.set.startup armed startupAt
    have early : now < t₀ + cfg.hookStartupGrace := by linarith
    constructor
    · exact Rest.frame ⟨unpublished, primed.set, semantic, fun _ => candidate,
        fun _ _ => .inr early⟩ (suppressed_timers _ _) (publishedKey_of_core (suppressed_core _ _))
    · have budgets := valid.budgets_nonneg
      obtain ⟨confirm, grace, stuck, cooldown, -, -, -, -⟩ := valid
      unfold BeliefConfig.patience
      linarith
  unfold offerPrompt
  dsimp only
  split
  · exact .inl (.inl rfl)
  · next unasked =>
    have kind : obs.promptKind = .freeText := by tauto
    obtain ⟨primed', semantic', candidate⟩ := tracked kind
    split
    · next covered => exact .inr (waits _ kind primed' unpublished' semantic' candidate covered)
    · exact confirmFreeText_silent valid gap kind primed' unpublished' semantic' candidate _

theorem onPrompt_silent (gap : 0 ≤ g)
    (prompt : obs.promptKind = .freeText ∨ obs.promptKind = .modalChoice ∨
      obs.promptKind = .permissionChoice)
    (primed : Primed cfg obs t₀ g now e)
    (semantic : e.timers.semanticFp = some obs.semanticFp) :
    Woken (onPrompt cfg e obs now) ∨
      Rest cfg obs t₀ g now (onPrompt cfg e obs now).1 ∧ now < t₀ + cfg.patience + g := by
  have offered : ∀ (e : BeliefEngine) (actions : List Action), Primed cfg obs t₀ g now e →
      e.timers.semanticFp = some obs.semanticFp →
      Woken (andThen (e, actions) fun e =>
        if e.publishedKey.isSome then (e.setPhase .pauseCandidate, [])
        else offerPrompt cfg e obs now) ∨
      Rest cfg obs t₀ g now (andThen (e, actions) fun e =>
        if e.publishedKey.isSome then (e.setPhase .pauseCandidate, [])
        else offerPrompt cfg e obs now).1 ∧ now < t₀ + cfg.patience + g := by
    intro e actions primed semantic
    unfold andThen
    dsimp only
    split
    · next shown => exact .inl (.inl shown)
    · next hidden =>
      have unpublished : e.publishedKey = none := by simpa using hidden
      rcases offerPrompt_silent valid gap prompt primed unpublished semantic with
        (shown | ⟨a, member, publishes⟩) | rest
      · exact .inl (.inl shown)
      · exact .inl (.inr ⟨a, List.mem_append_right _ member, publishes⟩)
      · exact .inr rest
  unfold onPrompt
  dsimp only
  split
  · cases published : e.publishedKey with
    | none =>
      have kept : withdraw cfg (e.setIntervention false) .promptChanged now =
          (e.setIntervention false, []) := by
        simp [withdraw, setIntervention, published]
      rw [kept]
      exact offered _ _ ⟨primed.set, primed.published, primed.candidate, primed.echo⟩ semantic
    | some key =>
      -- only the first tick of the frozen screen can find a decision to withdraw
      have first : now = t₀ := primed.published.resolve_right (by simp [published])
      have gone : withdraw cfg (e.setIntervention false) .promptChanged now =
          (forgetPublished cfg (e.setIntervention false) now, [.withdraw key .promptChanged]) := by
        simp [withdraw, setIntervention, published]
      rw [gone]
      refine offered _ _ ⟨?_, .inl first, fun _ => .inl first, primed.echo⟩ semantic
      exact { primed.set with
        cooldown := fun s at' => by
          have same : now + cfg.withdrawnCooldown = s := Option.some.inj at'
          linarith }
  · exact offered _ _ ⟨primed.set, primed.published, primed.candidate, primed.echo⟩ semantic

theorem onBusy_silent (gap : 0 ≤ g)
    (busy : ¬ (obs.promptKind = .freeText ∨ obs.promptKind = .modalChoice ∨
      obs.promptKind = .permissionChoice))
    (primed : Primed cfg obs t₀ g now e)
    (semantic : e.timers.semanticFp = some obs.semanticFp) :
    Woken (onBusy cfg e obs now) ∨
      Rest cfg obs t₀ g now (onBusy cfg e obs now).1 ∧ now < t₀ + cfg.patience + g := by
  have left : ∃ e' actions, withdraw cfg e .turnResumed now = (e', actions) ∧
      e'.leavePrompt.timers.By cfg t₀ (t₀ + cfg.hookStartupGrace + g) ∧
      e'.leavePrompt.timers.semanticFp = some obs.semanticFp ∧
      e'.leavePrompt.publishedKey = none := by
    cases published : e.publishedKey with
    | none =>
      refine ⟨e, [], by simp [withdraw, published], ?_, semantic, published⟩
      exact { primed.set with
        candidate := by rintro ⟨⟩
        echo := by rintro _ ⟨⟩ }
    | some key =>
      have first : now = t₀ := primed.published.resolve_right (by simp [published])
      refine ⟨forgetPublished cfg e now, [.withdraw key .turnResumed],
        by simp [withdraw, published], ?_, semantic, rfl⟩
      exact { primed.set with
        candidate := by rintro ⟨⟩
        echo := by rintro _ ⟨⟩
        cooldown := fun s at' => by
          have same : now + cfg.withdrawnCooldown = s := Option.some.inj at'
          linarith }
  obtain ⟨e', actions, withdrawn, set, known, unpublished⟩ := left
  unfold onBusy andThen
  rw [withdrawn]
  dsimp only
  rcases watchdog_silent obs now valid set (by simp [known]) with
    ⟨a, member, publishes⟩ | ⟨timers, published, early⟩
  · exact .inl (.inr ⟨a, List.mem_append_right _ member, publishes⟩)
  · refine .inr ⟨⟨published.trans unpublished, timers ▸ set, timers ▸ known, ?_, ?_⟩, ?_⟩
    · exact fun kind => absurd (.inl kind) busy
    · exact fun kind => absurd (.inl kind) busy
    · obtain ⟨confirm, grace, stuck, cooldown, -, -, -, startup⟩ := valid
      unfold BeliefConfig.patience
      linarith

/-- A tick of a living, screen-driven session on the frozen screen. -/
theorem tick_silent (gap : 0 ≤ g) (hookless : e.hookMode ≠ .active)
    {ctx : ObservationCtx} (alive : terminalTick obs ctx = false)
    (primed : Primed cfg obs t₀ g now e)
    (semantic : now = t₀ ∨ e.timers.semanticFp = some obs.semanticFp) :
    Woken (tick cfg e obs ctx now) ∨
      Rest cfg obs t₀ g now (tick cfg e obs ctx now).1 ∧ now < t₀ + cfg.patience + g := by
  have tracked : ∃ e₁ : BeliefEngine,
      maybeExpireStartupGrace cfg (e.track obs now) now = e₁ ∧ e₁.hookMode ≠ .active ∧
      Primed cfg obs t₀ g now e₁ ∧ e₁.timers.semanticFp = some obs.semanticFp := by
    refine ⟨_, rfl, ?_, ?_, ?_⟩
    · have mode : (e.track obs now).hookMode = e.hookMode := hookMode_of_core (by simp)
      rcases maybeExpireStartupGrace_cases cfg (e.track obs now) now with same | ⟨-, same⟩
      · rw [same, mode]
        exact hookless
      · rw [same]
        simp
    · have timers : (maybeExpireStartupGrace cfg (e.track obs now) now).timers =
          (e.trackSemantic obs now).timers := by simp [track]
      have published : (maybeExpireStartupGrace cfg (e.track obs now) now).publishedKey =
          e.publishedKey := by
        have display := maybeExpireStartupGrace_display cfg (e.track obs now) now
        exact (congrArg Prod.fst display).trans (publishedKey_of_core (by simp))
      have others : (e.trackSemantic obs now).timers.candidateFp = e.timers.candidateFp ∧
          (e.trackSemantic obs now).timers.echoSince = e.timers.echoSince := by
        unfold trackSemantic
        split <;> exact ⟨rfl, rfl⟩
      refine ⟨?_, published ▸ primed.published, ?_, ?_⟩
      · rw [timers]
        unfold trackSemantic
        split
        · next moved =>
          have first : now = t₀ := semantic.resolve_right (Ne.symm moved)
          exact { primed.set with
            semantic := fun _ => ⟨now, rfl, first.le⟩
            nag := by rintro _ ⟨⟩ }
        · exact primed.set
      · rw [timers, others.1]
        exact primed.candidate
      · rw [timers, others.2]
        exact primed.echo
    · have timers : (maybeExpireStartupGrace cfg (e.track obs now) now).timers =
          (e.trackSemantic obs now).timers := by simp [track]
      rw [timers]
      unfold trackSemantic
      split
      · rfl
      · next same => exact (not_not.mp same).symm
  obtain ⟨e₁, expired, fallback, primed₁, semantic₁⟩ := tracked
  have updated : Primed cfg obs t₀ g now (updatePostSubmit cfg e₁ obs now) ∧
      (updatePostSubmit cfg e₁ obs now).timers.semanticFp = some obs.semanticFp := by
    have published := publishedKey_of_core (updatePostSubmit_core cfg e₁ obs now)
    have others : (updatePostSubmit cfg e₁ obs now).timers.candidateFp = e₁.timers.candidateFp ∧
        (updatePostSubmit cfg e₁ obs now).timers.echoSince = e₁.timers.echoSince ∧
        (updatePostSubmit cfg e₁ obs now).timers.semanticFp = e₁.timers.semanticFp := by
      unfold updatePostSubmit postSubmitBaseline
      split
      · exact ⟨rfl, rfl, rfl⟩
      · dsimp only
        split <;> split <;> try split
        all_goals first | exact ⟨rfl, rfl, rfl⟩ | (split <;> exact ⟨rfl, rfl, rfl⟩)
    obtain ⟨candidate, echo, fp⟩ := others
    refine ⟨⟨?_, published ▸ primed₁.published, candidate ▸ primed₁.candidate,
      echo ▸ primed₁.echo⟩, fp.trans semantic₁⟩
    exact updatePostSubmit_by obs primed₁.set
  obtain ⟨primed₂, semantic₂⟩ := updated
  have refreshed : ∀ r : BeliefEngine × List Action,
      Woken r ∨ Rest cfg obs t₀ g now r.1 ∧ now < t₀ + cfg.patience + g →
      Woken (refreshState cfg r.1 obs now, r.2) ∨
        Rest cfg obs t₀ g now (refreshState cfg r.1 obs now) ∧ now < t₀ + cfg.patience + g := by
    rintro r (woken | ⟨rest, early⟩)
    · exact .inl woken
    · exact .inr ⟨rest.frame rfl rfl, early⟩
  have screened : tick cfg e obs ctx now = tickScreen cfg e₁ obs now := by
    simp [tick, alive, expired, tickAlive, fallback]
  rw [screened]
  unfold tickScreen
  dsimp only
  apply refreshed
  split
  · next prompt => exact onPrompt_silent valid gap prompt primed₂ semantic₂
  · next busy => exact onBusy_silent valid gap busy primed₂ semantic₂

end Ticks

/-! ### Runs -/

section Runs

variable {cfg : BeliefConfig} {e : BeliefEngine}

/-- A call of a screen-driven session sets its timers by its own clock. -/
theorem timers_step (valid : cfg.Valid) {now : Time} (hookless : e.hookMode ≠ .active)
    (set : e.timers.By cfg now now) (c : ScreenCall) (later : now ≤ c.now) :
    ((screenMachine cfg).step e c).1.timers.By cfg c.now c.now := by
  have set := set.mono later later
  cases c with
  | submit t =>
    exact { set with
      candidate := nofun
      grace := fun _ => ⟨_, rfl, le_refl _⟩
      cooldown := nofun
      echo := nofun }
  | expectHooks t =>
    simp only [screenMachine, react, ScreenCall.input, expectHooks]
    split
    · exact { set with
        startup := fun s at' => by
          have same : t = s := Option.some.inj at'
          exact same.ge }
    · exact set
  | tick obs ctx t =>
    have tracked : (e.track obs t).timers.By cfg t t := track_by obs set
    simp only [screenMachine, react, ScreenCall.input, tick]
    split
    · exact tracked
    · have fallback : (maybeExpireStartupGrace cfg (e.track obs t) t).hookMode ≠ .active := by
        have mode : (e.track obs t).hookMode = e.hookMode := hookMode_of_core (by simp)
        rcases maybeExpireStartupGrace_cases cfg (e.track obs t) t with same | ⟨-, same⟩
        · rw [same, mode]
          exact hookless
        · rw [same]
          simp
      rw [tickAlive, if_neg fallback]
      refine tickScreen_by obs valid ?_
      rwa [maybeExpireStartupGrace_timers]

theorem timers_run (valid : cfg.Valid) {now : Time} (hookless : e.hookMode ≠ .active)
    (set : e.timers.By cfg now now) (calls : List ScreenCall)
    (ordered : (now :: calls.map ScreenCall.now).Pairwise (· ≤ ·)) {later : Time}
    (last : ∀ t ∈ now :: calls.map ScreenCall.now, t ≤ later) :
    ((screenMachine cfg).after e calls).hookMode ≠ .active ∧
      ((screenMachine cfg).after e calls).timers.By cfg later later := by
  induction calls generalizing e now with
  | nil => exact ⟨hookless, set.mono (last now (by simp)) (last now (by simp))⟩
  | cons c rest ih =>
    obtain ⟨first, tail⟩ := List.pairwise_cons.mp ordered
    have stepped := timers_step valid hookless set c (first c.now (by simp))
    exact ih (screen_hookless cfg e hookless c) stepped tail
      fun t member => last t (List.mem_cons_of_mem _ member)

/-- The ticks of a screen that stands still. -/
def frozen (obs : Observation) (ctx : ObservationCtx) (ts : List Time) : List ScreenCall :=
  ts.map fun t => .tick obs ctx t

/-- The engine shows a decision after the calls, or published something in them. -/
def WokenBy (cfg : BeliefConfig) (e : BeliefEngine) (calls : List ScreenCall) : Prop :=
  ((screenMachine cfg).after e calls).publishedKey.isSome ∨
    ∃ t a, .emitted t a ∈ (screenMachine cfg).outputs e calls ∧ a.isPublish = true

theorem wokenBy_cons {c : ScreenCall} {rest : List ScreenCall}
    (woken : WokenBy cfg ((screenMachine cfg).step e c).1 rest) :
    WokenBy cfg e (c :: rest) := by
  rcases woken with shown | ⟨t, a, member, publishes⟩
  · exact .inl shown
  · exact .inr ⟨t, a, List.mem_append_right _ member, publishes⟩

theorem wokenBy_tick {obs : Observation} {ctx : ObservationCtx} {t : Time}
    (woken : Woken (tick cfg e obs ctx t)) : WokenBy cfg e [.tick obs ctx t] := by
  rcases woken with shown | ⟨a, member, publishes⟩
  · exact .inl shown
  · refine .inr ⟨t, a, ?_, publishes⟩
    simpa [screenMachine, react, ScreenCall.input, ScreenCall.now] using member

variable {obs : Observation} {ctx : ObservationCtx} {t₀ g : Time}

/-- From a rest on, ticks at most `g` apart: the first one past the engine's patience wakes it. -/
theorem rest_wakes (valid : cfg.Valid) (gap : 0 ≤ g) (alive : terminalTick obs ctx = false)
    {last : Time} (hookless : e.hookMode ≠ .active) (rest : Rest cfg obs t₀ g last e)
    (early : last < t₀ + cfg.patience + g) {ts : List Time}
    (gaps : (last :: ts).IsChain fun a b => b ≤ a + g)
    (long : ∃ t ∈ ts, t₀ + cfg.patience + g ≤ t) :
    ∃ first more, ts = first ++ more ∧ (∀ t ∈ first, t ≤ t₀ + cfg.patience + 2 * g) ∧
      WokenBy cfg e (frozen obs ctx first) := by
  induction ts generalizing e last with
  | nil => simp at long
  | cons t ts ih =>
    obtain ⟨close, tail⟩ := List.isChain_cons_cons.mp gaps
    have due : t ≤ t₀ + cfg.patience + 2 * g := by linarith
    have primed : Primed cfg obs t₀ g t e :=
      { set := rest.set
        published := .inr rest.unpublished
        candidate := fun kind => .inr (rest.candidate kind)
        echo := fun kind present => (rest.echo kind present).imp_right fun young => by linarith }
    rcases tick_silent valid gap hookless alive primed (.inr rest.semantic) with
      woken | ⟨rest', early'⟩
    · exact ⟨[t], ts, rfl, by simpa using due, wokenBy_tick woken⟩
    · have later : ∃ t' ∈ ts, t₀ + cfg.patience + g ≤ t' := by
        obtain ⟨t', member, past⟩ := long
        rcases List.mem_cons.mp member with rfl | later
        · linarith
        · exact ⟨t', later, past⟩
      have hookless' := screen_hookless cfg e hookless (.tick obs ctx t)
      obtain ⟨first, more, split, within', woken⟩ := ih hookless' rest' early' tail later
      refine ⟨t :: first, more, by rw [split, List.cons_append], ?_, wokenBy_cons woken⟩
      exact fun t' member => (List.mem_cons.mp member).elim (fun same => same ▸ due) (within' t')

/-- However a screen-driven session came to it: once the screen stands still, and the ticks go on
at most `g` apart, then within the engine's patience and two gaps it shows a decision or has
published something, or the screen is a crash or an exit and it ended the session. -/
theorem frozen_wakes (valid : cfg.Valid) (t₀ : Time) {g : Time} (gap : 0 ≤ g)
    (before : List ScreenCall) (obs : Observation) (ctx : ObservationCtx) (living : ctx.childAlive = true) (ts : List Time)
    (ordered : (before.map ScreenCall.now ++ t₀ :: ts).Pairwise (· ≤ ·))
    (gaps : (t₀ :: ts).IsChain fun a b => b ≤ a + g)
    (long : ∃ t ∈ t₀ :: ts, t₀ + cfg.patience + g ≤ t) :
    ∃ first more, t₀ :: ts = first ++ more ∧ first ≠ [] ∧
      (∀ t ∈ first, t ≤ t₀ + cfg.patience + 2 * g) ∧
      if obs.promptKind = .crash ∨ obs.promptKind = .exit then
        .emitted t₀ .finalize ∈ (screenMachine cfg).outputs
          ((screenMachine cfg).after {} before) (frozen obs ctx first)
      else WokenBy cfg ((screenMachine cfg).after {} before) (frozen obs ctx first) := by
  have patient : 0 ≤ cfg.patience := by
    have budgets := valid.budgets_nonneg
    obtain ⟨confirm, grace, stuck, cooldown, -, -, -, startup⟩ := valid
    unfold BeliefConfig.patience
    linarith
  have soon : t₀ ≤ t₀ + cfg.patience + 2 * g := by linarith
  have fresh : (({} : BeliefEngine)).hookMode ≠ .active := by decide
  -- the timers as the run before the freeze left them
  obtain ⟨hookless, set⟩ : ((screenMachine cfg).after {} before).hookMode ≠ .active ∧
      ((screenMachine cfg).after {} before).timers.By cfg t₀ t₀ := by
    obtain ⟨sorted, -, below⟩ := List.pairwise_append.mp ordered
    cases before with
    | nil => exact ⟨fresh, fresh_by t₀⟩
    | cons c rest =>
      have start : (({} : BeliefEngine)).timers.By cfg c.now c.now := fresh_by c.now
      refine timers_run valid fresh start (c :: rest) ?_ ?_
      · have below' := (List.pairwise_cons.mp sorted).1
        refine List.pairwise_cons.mpr ⟨fun t member => ?_, sorted⟩
        rcases List.mem_cons.mp member with rfl | later
        · exact le_refl _
        · exact below' t later
      · intro t member
        have among : t ∈ (c :: rest).map ScreenCall.now := by
          rcases List.mem_cons.mp member with rfl | later
          · simp
          · exact later
        exact below t among t₀ (by simp)
  by_cases terminal : obs.promptKind = .crash ∨ obs.promptKind = .exit
  · refine ⟨[t₀], ts, rfl, by simp, by simpa using soon, ?_⟩
    rw [if_pos terminal]
    have dead : terminalTick obs ctx = true := by
      rcases terminal with crash | exit <;> simp [terminalTick, *]
    simp [frozen, screenMachine, react, ScreenCall.input, ScreenCall.now, tick, dead]
  · have alive : terminalTick obs ctx = false := by
      obtain ⟨crash, exit⟩ := not_or.mp terminal
      simp [terminalTick, living, crash, exit]
    have startup := valid.hookStartupGrace
    have primed : Primed cfg obs t₀ g t₀ ((screenMachine cfg).after {} before) :=
      { set := set.mono (le_refl _) (by linarith)
        published := .inl rfl
        candidate := fun _ => .inl rfl
        echo := fun _ _ => .inr (by linarith) }
    simp only [if_neg terminal]
    rcases tick_silent valid gap hookless alive primed (.inl rfl) with woken | ⟨rest, early⟩
    · exact ⟨[t₀], ts, rfl, by simp, by simpa using soon, wokenBy_tick woken⟩
    · have later : ∃ t ∈ ts, t₀ + cfg.patience + g ≤ t := by
        obtain ⟨t, member, past⟩ := long
        rcases List.mem_cons.mp member with rfl | later
        · linarith
        · exact ⟨t, later, past⟩
      have hookless' := screen_hookless cfg _ hookless (.tick obs ctx t₀)
      obtain ⟨first, more, split, due, woken⟩ :=
        rest_wakes valid gap alive hookless' rest early gaps later
      refine ⟨t₀ :: first, more, by rw [split, List.cons_append], by simp, ?_,
        wokenBy_cons woken⟩
      exact fun t member => (List.mem_cons.mp member).elim (fun same => same ▸ soon) (due t)

theorem valid_default : BeliefConfig.Valid {} where
  idleConfirmWindow := by norm_num
  postSubmitGrace := by norm_num
  echoStuckAfter := by norm_num
  withdrawnCooldown := by norm_num
  liveBudget := by norm_num
  staleBudget := by norm_num
  unknownBudget := by norm_num
  hookStartupGrace := by norm_num

/-- A prompt of its own kind and a tick every half hour: the second tick publishes it. -/
theorem frozen_prompt_wakes :
    ∃ first more, [(0 : Time), 2000, 4000] = first ++ more ∧ first ≠ [] ∧
      (∀ t ∈ first, t ≤ 0 + ({} : BeliefConfig).patience + 2 * 2000) ∧
      WokenBy {} {} (frozen { promptKind := .freeText } { childAlive := true } first) := by
  obtain ⟨first, more, split, some, due, woken⟩ :=
    frozen_wakes (g := 2000) valid_default 0 (by norm_num) [] { promptKind := .freeText }
      { childAlive := true } rfl [2000, 4000] (by norm_num) (by norm_num)
      ⟨4000, by simp, by norm_num [BeliefConfig.patience, BeliefConfig.budgets]⟩
  exact ⟨first, more, split, some, due, woken⟩

/-- A crash screen under a living process: every tick ends the session, and none publishes. -/
theorem crash_silent {obs : Observation} {ctx : ObservationCtx} (crash : obs.promptKind = .crash)
    (unpublished : e.publishedKey = none) (ts : List Time) :
    ¬ WokenBy cfg e (frozen obs ctx ts) := by
  have dead : terminalTick obs ctx = true := by simp [terminalTick, crash]
  induction ts generalizing e with
  | nil => simp [WokenBy, frozen, unpublished]
  | cons t ts ih =>
    have step : (screenMachine cfg).step e (.tick obs ctx t) =
        ((e.track obs t).setControl .terminal .terminal, [.emitted t .finalize]) := by
      simp [screenMachine, react, ScreenCall.input, ScreenCall.now, tick, dead]
    have still : ((e.track obs t).setControl .terminal .terminal).publishedKey = none :=
      (publishedKey_of_core (track_core e obs t)).trans unpublished
    have later := ih still
    rintro (shown | ⟨t', a, member, publishes⟩)
    · refine later (.inl ?_)
      simpa [frozen, step] using shown
    · have split : .emitted t' a ∈ ScreenEvent.emitted t .finalize ::
          (screenMachine cfg).outputs ((e.track obs t).setControl .terminal .terminal)
            (frozen obs ctx ts) := by
        simpa [frozen, step] using member
      rcases List.mem_cons.mp split with same | rest
      · cases same
        simp [Action.isPublish] at publishes
      · exact later (.inr ⟨t', a, rest, publishes⟩)

/-- So under the frozen screen of a crash banner nothing is published within the engine's patience,
nor later. -/
theorem crash_never_wakes :
    ({ childAlive := true } : ObservationCtx).childAlive = true ∧
      ¬ ∃ first more, [(0 : Time), 2000, 4000] = first ++ more ∧ first ≠ [] ∧
        (∀ t ∈ first, t ≤ 0 + ({} : BeliefConfig).patience + 2 * 2000) ∧
        WokenBy {} {} (frozen { promptKind := .crash } { childAlive := true } first) :=
  ⟨rfl, fun ⟨first, _, _, _, _, woken⟩ => crash_silent rfl rfl first woken⟩

end Runs

end BeliefEngine

end Nelix.Daemon
