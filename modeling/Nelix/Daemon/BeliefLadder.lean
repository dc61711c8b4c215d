import Nelix.Daemon.BeliefRuns

/-!
# The nag ladder

The watchdog, a stuck input and a lost `Stop` share one counter and one deadline. Only an advance of
the screen's meaning starts them again, and only an advisory moves them.

## Main results

`ladder_paced`: between two advances of the meaning the advisories are counted one by one, each no
sooner than the budget that was in force at the one before it.
-/
namespace Nelix.Daemon

/-- An advisory: when it fired, the budget in force, and its count. -/
structure Nag where
  firedAt : Time
  budget : Time
  count : Nat

/-- The budget in force is that of the liveness and the reason the advisory reports. -/
def Action.nag? (cfg : BeliefConfig) (now : Time) : Action → Option Nag
  | .publish p =>
    if p.kind = .interventionRequired then
      some ⟨now, BeliefEngine.budget cfg (p.payload.liveness.getD .unknown) p.payload.busyReason,
        p.payload.escalationCount.getD 0⟩
    else none
  | _ => none

inductive LadderEvent
  /-- The screen's meaning advanced. -/
  | changed
  | nagged (nag : Nag)

/-- After the last advisory of an episode, if there was one. -/
def Paced : Option Nag → List LadderEvent → Prop
  | _, [] => True
  | _, .changed :: rest => Paced none rest
  | none, .nagged nag :: rest => nag.count = 1 ∧ Paced (some nag) rest
  | some last, .nagged nag :: rest =>
    nag.count = last.count + 1 ∧ last.firedAt + last.budget ≤ nag.firedAt ∧ Paced (some nag) rest

/-- When a call is made. -/
def Input.time : Input → Time
  | .hook _ now | .submit now | .tick _ _ now | .expectHooks now => now

namespace BeliefEngine

/-- A tick whose screen means something else than the one before. -/
def changes (e : BeliefEngine) : Input → List LadderEvent
  | .tick obs _ _ => if some obs.semanticFp ≠ e.semanticFp then [.changed] else []
  | _ => []

/-- The engine as a machine that writes its advisories and the advances of the meaning. -/
def ladder (cfg : BeliefConfig) : Core.Machine BeliefEngine Input LadderEvent where
  step e i := ((react cfg e i).1,
    e.changes i ++ ((react cfg e i).2.filterMap (Action.nag? cfg i.time)).map .nagged)

/-- The counter and the deadline. -/
def rung (e : BeliefEngine) : Nat × Option Time := (e.escalationCount, e.nextNagAt)

/-! ### What leaves the ladder alone -/

/-- A piece of a call that neither moves the ladder nor publishes an advisory. -/
structure Idles (e : BeliefEngine) (r : BeliefEngine × List Action) : Prop where
  rung : r.1.rung = e.rung
  quiet : ∀ a ∈ r.2, ∀ p, a = .publish p → p.kind ≠ .interventionRequired

namespace Idles

variable {e e' : BeliefEngine} {r : BeliefEngine × List Action}

theorem silent (same : e'.rung = e.rung) : Idles e (e', []) := ⟨same, by simp⟩

theorem andThen {next : BeliefEngine → BeliefEngine × List Action} (first : Idles e r)
    (second : Idles r.1 (next r.1)) : Idles e (andThen r next) where
  rung := second.rung.trans first.rung
  quiet a member := by
    rcases List.mem_append.mp member with old | new
    · exact first.quiet a old
    · exact second.quiet a new

theorem after (same : e'.rung = e.rung) (next : Idles e' r) : Idles e r :=
  ⟨next.rung.trans same, next.quiet⟩

theorem before (first : Idles e r) (same : e'.rung = r.1.rung) : Idles e (e', r.2) :=
  ⟨same.trans first.rung, first.quiet⟩

theorem noNag (idles : Idles e r) (cfg : BeliefConfig) (now : Time) :
    r.2.filterMap (Action.nag? cfg now) = [] := by
  refine List.filterMap_eq_nil_iff.mpr fun a member => ?_
  cases a with
  | publish p => exact if_neg (idles.quiet _ member p rfl)
  | withdraw key reason => rfl
  | finalize => rfl

end Idles

section Frames

variable (cfg : BeliefConfig) (e : BeliefEngine) (obs : Observation) (now : Time)

theorem withdraw_idles (reason : WithdrawReason) : Idles e (withdraw cfg e reason now) := by
  unfold withdraw
  split
  · exact ⟨rfl, by simp⟩
  · exact .silent rfl

theorem suppressed_rung (reason : SuppressReason) : (e.suppressed reason).rung = e.rung := by
  unfold suppressed
  split <;> rfl

theorem trackHeartbeat_rung : (e.trackHeartbeat obs now).rung = e.rung := by
  unfold trackHeartbeat
  split
  · rfl
  · split <;> rfl

theorem maybeExpireStartupGrace_rung : (maybeExpireStartupGrace cfg e now).rung = e.rung := by
  unfold maybeExpireStartupGrace
  split
  · rfl
  · split <;> rfl

theorem postSubmitBaseline_rung : (e.postSubmitBaseline obs).rung = e.rung := by
  unfold postSubmitBaseline
  split <;> rfl

theorem updatePostSubmit_rung : (updatePostSubmit cfg e obs now).rung = e.rung := by
  have ended (reason : ClearReason) :
      ((e.postSubmitBaseline obs).endPostSubmit reason).rung = e.rung := postSubmitBaseline_rung e obs
  unfold updatePostSubmit
  split
  · rfl
  · dsimp only
    split
    · exact ended _
    · split
      · exact ended _
      · split
        · exact ended _
        · exact postSubmitBaseline_rung e obs

theorem trackCandidate_rung : (e.trackCandidate obs now).rung = e.rung := by
  unfold trackCandidate
  dsimp only
  split <;> rfl

theorem clockEcho_rung : (e.clockEcho now).rung = e.rung := by
  unfold clockEcho
  split <;> rfl

theorem watchPrompt_rung : (e.watchPrompt obs now).rung = e.rung := by
  unfold watchPrompt
  dsimp only
  split <;> rfl

theorem trackHookProgress_rung : (e.trackHookProgress obs now).rung = e.rung := by
  unfold trackHookProgress
  split
  · rfl
  · split <;> rfl

theorem publishDecision_idles (key : DecisionKey) : Idles e (e.publishDecision obs key) :=
  ⟨rfl, by simp [publishDecision]⟩

theorem reconcileLostStopIdle_idles : Idles e (reconcileLostStopIdle cfg e obs now) := by
  unfold reconcileLostStopIdle
  dsimp only
  split
  · exact .silent (watchPrompt_rung e obs now)
  · exact ⟨watchPrompt_rung e obs now, by simp [idlePublish]⟩

end Frames

/-! ### Hooks -/

section Hooks

variable (cfg : BeliefConfig) (e : BeliefEngine) (hobs : HookObservation) (now : Time)

theorem dropPending_idles (reason : WithdrawReason) : Idles e (e.dropPending reason) := by
  unfold dropPending
  split
  · exact ⟨rfl, by simp⟩
  · exact .silent rfl

theorem closeTurn_idles : Idles e (e.closeTurn hobs) := by
  unfold closeTurn
  split
  · exact .silent rfl
  · have dropped := dropPending_idles e.endEpoch .superseded
    refine ⟨dropped.rung, fun a member p published => ?_⟩
    rcases List.mem_append.mp member with old | new
    · exact dropped.quiet a old p published
    · obtain rfl := List.mem_singleton.mp new
      cases published
      exact nofun

theorem clearPending_idles : Idles e e.clearPending := by
  unfold clearPending
  split
  · exact .silent rfl
  · exact (dropPending_idles e .promptLeft).before rfl

theorem pauseForUser_idles : Idles e (e.pauseForUser hobs) := by
  unfold pauseForUser
  split
  · exact .silent rfl
  · dsimp only
    split
    · split
      · exact ⟨rfl, by simp [hookPausePublish]⟩
      · exact .silent rfl
    · split
      · exact .silent rfl
      · exact ⟨rfl, by simp [hookPausePublish]⟩

theorem workingHook_rung : (e.workingHook hobs).rung = e.rung := by
  unfold workingHook
  split <;> rfl

theorem hookBody_idles : Idles e (e.hookBody hobs) := by
  unfold hookBody
  split
  · exact .silent rfl
  · split
    · exact closeTurn_idles e hobs
    · split
      · exact clearPending_idles e
      · split
        · exact pauseForUser_idles e hobs
        · exact .silent (workingHook_rung e hobs)

theorem onHook_idles : Idles e (onHook cfg e hobs now) := by
  have seen (r : BeliefEngine × List Action) (idles : Idles e r) :
      Idles e (r.1.hookSeen now, r.2) := idles.before rfl
  have active : e.activate.rung = e.rung := rfl
  refine .andThen (seen _ ?_) (hookBody_idles _ hobs)
  split
  · exact .silent rfl
  · exact .after active (withdraw_idles cfg e.activate now .superseded)

end Hooks

/-! ### Ticks -/

/-- A piece of a tick: it leaves the ladder alone, or it fires the one advisory that is due and
sets the next deadline by the budget in force. -/
inductive Climbs (cfg : BeliefConfig) (now : Time) (e : BeliefEngine) :
    BeliefEngine × List Action → Prop
  | idles {r : BeliefEngine × List Action} (idles : Idles e r) : Climbs cfg now e r
  | fires {r : BeliefEngine × List Action} (nag : Nag) (due : e.nagDue now = true)
      (only : r.2.filterMap (Action.nag? cfg now) = [nag])
      (counted : nag.count = e.escalationCount + 1) (fired : nag.firedAt = now)
      (rung : r.1.rung = (nag.count, some (nag.firedAt + nag.budget))) : Climbs cfg now e r

namespace Climbs

variable {cfg : BeliefConfig} {now : Time} {e e' : BeliefEngine} {r : BeliefEngine × List Action}

theorem after (same : e'.rung = e.rung) (next : Climbs cfg now e' r) : Climbs cfg now e r := by
  obtain ⟨count, deadline⟩ := Prod.mk.inj same
  cases next with
  | idles idles => exact .idles (idles.after same)
  | fires nag due only counted fired rung =>
    refine .fires nag ?_ only (by rw [counted, count]) fired rung
    rwa [nagDue, deadline] at due

theorem before (first : Climbs cfg now e r) (same : e'.rung = r.1.rung) :
    Climbs cfg now e (e', r.2) := by
  cases first with
  | idles idles => exact .idles (idles.before same)
  | fires nag due only counted fired rung =>
    exact .fires nag due only counted fired (same.trans rung)

theorem andThen {next : BeliefEngine → BeliefEngine × List Action} (first : Idles e r)
    (second : Climbs cfg now r.1 (next r.1)) : Climbs cfg now e (BeliefEngine.andThen r next) := by
  obtain ⟨count, deadline⟩ := Prod.mk.inj first.rung
  cases second with
  | idles idles => exact .idles (first.andThen idles)
  | fires nag due only counted fired rung =>
    refine .fires nag ?_ ?_ (by rw [counted, count]) fired rung
    · rwa [nagDue, deadline] at due
    · exact (List.filterMap_append ..).trans (by rw [first.noNag cfg now, only, List.nil_append])

end Climbs

section Ticks

variable (cfg : BeliefConfig) (e : BeliefEngine) (obs : Observation) (now : Time)

theorem nag_climbs (due : e.nagDue now = true) (phase : Phase) (hint : Hint) :
    Climbs cfg now e (nag cfg e obs now phase hint) :=
  .fires ⟨now, budget cfg (liveness cfg e obs now) obs.busyReason, e.escalationCount + 1⟩ due rfl rfl
    rfl rfl

theorem escalate_climbs (phase : Phase) (hint : Hint) :
    Climbs cfg now e (escalate cfg e obs now phase hint) := by
  have raised : (e.setIntervention true).rung = e.rung := rfl
  unfold escalate
  dsimp only
  split
  · rename_i due
    exact .after raised (nag_climbs cfg _ obs now due phase hint)
  · exact .idles (.silent rfl)

theorem watchdog_climbs : Climbs cfg now e (watchdog cfg e obs now) := by
  unfold watchdog
  split
  · exact .idles (.silent rfl)
  · exact escalate_climbs cfg e obs now _ _

theorem tickHookWatchdog_climbs : Climbs cfg now e (tickHookWatchdog cfg e obs now) :=
  (watchdog_climbs cfg e obs now).before rfl

theorem escalateLostStop_climbs : Climbs cfg now e (escalateLostStop cfg e obs now) := by
  unfold escalateLostStop
  refine (escalate_climbs cfg e obs now _ _).before ?_
  split <;> rfl

theorem tickHookActive_climbs : Climbs cfg now e (tickHookActive cfg e obs now) := by
  unfold tickHookActive
  split
  · exact .idles (.silent rfl)
  · split
    · have reconciled := reconcileLostStopIdle_idles cfg e obs now
      dsimp only
      split
      · exact .idles reconciled
      · exact .after reconciled.rung (tickHookWatchdog_climbs cfg _ obs now)
    · have tracked : (e.forgetPrompt.trackHookProgress obs now).rung = e.rung :=
        trackHookProgress_rung e.forgetPrompt obs now
      refine .after tracked ?_
      dsimp only
      split
      · exact escalateLostStop_climbs cfg _ obs now
      · exact tickHookWatchdog_climbs cfg _ obs now

theorem confirmFreeText_climbs (key : DecisionKey) :
    Climbs cfg now e (confirmFreeText cfg e obs now key) := by
  have cleared : e.clearEcho.rung = e.rung := rfl
  have waits (e : BeliefEngine) (reason : SuppressReason) :
      Climbs cfg now e (e.suppressed reason, []) := .idles (.silent (suppressed_rung e reason))
  unfold confirmFreeText
  split
  · refine .after (clockEcho_rung e now) ?_
    dsimp only
    split
    · exact waits _ _
    · exact escalate_climbs cfg _ obs now _ _
  · refine .after cleared ?_
    dsimp only
    split
    · exact waits _ _
    · split
      · exact waits _ _
      · split
        · exact waits _ _
        · exact .idles (publishDecision_idles _ obs key)

theorem offerPrompt_climbs : Climbs cfg now e (offerPrompt cfg e obs now) := by
  have tracked : ((e.trackCandidate obs now).setPhase .pauseCandidate).rung = e.rung :=
    trackCandidate_rung e obs now
  unfold offerPrompt
  refine .after tracked ?_
  dsimp only
  split
  · exact .idles (publishDecision_idles _ obs _)
  · split
    · exact .idles (.silent (suppressed_rung _ _))
    · exact confirmFreeText_climbs cfg _ obs now _

theorem onPrompt_climbs : Climbs cfg now e (onPrompt cfg e obs now) := by
  have offer (e : BeliefEngine) : Climbs cfg now e
      (if e.publishedKey.isSome then (e.setPhase .pauseCandidate, [])
        else offerPrompt cfg e obs now) := by
    split
    · exact .idles (.silent rfl)
    · exact offerPrompt_climbs cfg e obs now
  have interrupted : (e.setIntervention false).rung = e.rung := rfl
  unfold onPrompt
  refine .after interrupted (.andThen ?_ (offer _))
  split
  · exact withdraw_idles cfg _ now _
  · exact .silent rfl

theorem onBusy_climbs : Climbs cfg now e (onBusy cfg e obs now) := by
  have left (e : BeliefEngine) : e.leavePrompt.rung = e.rung := rfl
  exact .andThen (withdraw_idles cfg e now _) (.after (left _) (watchdog_climbs cfg _ obs now))

theorem tickScreen_climbs : Climbs cfg now e (tickScreen cfg e obs now) := by
  have refresh (r : BeliefEngine × List Action) (climbs : Climbs cfg now e r) :
      Climbs cfg now e (refreshState cfg r.1 obs now, r.2) := climbs.before rfl
  refine refresh _ (.after (updatePostSubmit_rung cfg e obs now) ?_)
  split
  · exact onPrompt_climbs cfg _ obs now
  · exact onBusy_climbs cfg _ obs now

theorem tickAlive_climbs : Climbs cfg now e (tickAlive cfg e obs now) := by
  unfold tickAlive
  split
  · exact tickHookActive_climbs cfg e obs now
  · exact tickScreen_climbs cfg e obs now

theorem tick_climbs (ctx : ObservationCtx) :
    Climbs cfg now (e.trackSemantic obs now) (tick cfg e obs ctx now) := by
  refine .after (trackHeartbeat_rung _ obs now) ?_
  unfold tick
  dsimp only
  split
  · exact .idles ⟨rfl, by simp⟩
  · exact .after (maybeExpireStartupGrace_rung cfg _ now) (tickAlive_climbs cfg _ obs now)

end Ticks

/-! ### Runs -/

/-- The counter and the deadline are those of the last advisory of the episode. -/
def OnRung (e : BeliefEngine) : Option Nag → Prop
  | none => e.rung = (0, none)
  | some last => e.rung = (last.count, some (last.firedAt + last.budget))

variable {cfg : BeliefConfig} {e e' : BeliefEngine} {last : Option Nag}

theorem OnRung.of_rung (onRung : e.OnRung last) (same : e'.rung = e.rung) : e'.OnRung last := by
  cases last with
  | none => exact same.trans onRung
  | some last => exact same.trans onRung

/-- What a piece of a tick fires is paced, and leaves the engine on its rung. -/
theorem OnRung.climbs (onRung : e.OnRung last) {now : Time} {r : BeliefEngine × List Action}
    (climbs : Climbs cfg now e r) {rest : List LadderEvent}
    (later : ∀ last', r.1.OnRung last' → Paced last' rest) :
    Paced last ((r.2.filterMap (Action.nag? cfg now)).map .nagged ++ rest) := by
  cases climbs with
  | idles idles =>
    rw [idles.noNag cfg now]
    exact later last (onRung.of_rung idles.rung)
  | fires nag due only counted fired rung =>
    rw [only]
    have next := later (some nag) rung
    cases last with
    | none =>
      obtain ⟨count, -⟩ := Prod.mk.inj onRung
      exact ⟨by rw [counted, count], next⟩
    | some last =>
      obtain ⟨count, deadline⟩ := Prod.mk.inj onRung
      refine ⟨by rw [counted, count], ?_, next⟩
      rw [nagDue, deadline] at due
      have reached : last.firedAt + last.budget ≤ now := by simpa [reached] using due
      rwa [fired]

theorem OnRung.react (onRung : e.OnRung last) (i : Input) {rest : List LadderEvent}
    (later : ∀ last', ((ladder cfg).step e i).1.OnRung last' → Paced last' rest) :
    Paced last (((ladder cfg).step e i).2 ++ rest) := by
  cases i with
  | tick obs ctx now =>
    have climbs := tick_climbs cfg e obs now ctx
    simp only [ladder, BeliefEngine.react, changes, Input.time] at later ⊢
    by_cases advanced : some obs.semanticFp ≠ e.semanticFp
    · rw [if_pos advanced]
      have fresh : (e.trackSemantic obs now).OnRung none := by
        rw [trackSemantic, if_pos advanced]
        rfl
      exact fresh.climbs climbs later
    · rw [if_neg advanced]
      have same : e.trackSemantic obs now = e := if_neg advanced
      rw [same] at climbs
      exact onRung.climbs climbs later
  | hook hobs now => exact onRung.climbs (.idles (onHook_idles cfg e hobs now)) later
  | submit now => exact later last (onRung.of_rung rfl)
  | expectHooks now =>
    refine later last (onRung.of_rung ?_)
    change (e.expectHooks now).rung = e.rung
    unfold expectHooks
    split <;> rfl

theorem ladder_paced_from (is : List Input) (onRung : e.OnRung last) :
    Paced last ((ladder cfg).outputs e is) := by
  induction is generalizing e last with
  | nil => cases last <;> trivial
  | cons i rest ih => exact onRung.react i fun last' => ih

/-- In every run the advisories of one episode are counted from one, each no sooner than the budget
in force at the one before it. -/
theorem ladder_paced (cfg : BeliefConfig) (is : List Input) :
    Paced none ((ladder cfg).outputs {} is) := ladder_paced_from is rfl

end BeliefEngine

end Nelix.Daemon
