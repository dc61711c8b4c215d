import Nelix.Core.Slot
import Nelix.Daemon.BeliefPending

/-!
# The decision on the screen

A session whose hooks never speak is driven by its screen: ticks publish and withdraw decisions,
submits answer them. A step takes the standing decision down, and then offers the prompt it sees.
From what a step does follows what a run shows: decisions never stack, only the one on display is
withdrawn, and a free-text decision that was withdrawn stays away for the cooldown.
-/
namespace Nelix.Daemon

/-- A call of the engine while the screen drives it. -/
inductive ScreenCall
  | tick (obs : Observation) (ctx : ObservationCtx) (now : Time)
  | submit (now : Time)
  | expectHooks (now : Time)

namespace ScreenCall

def input : ScreenCall → Input
  | .tick obs ctx now => .tick obs ctx now
  | .submit now => .submit now
  | .expectHooks now => .expectHooks now

/-- The clock reading of the call. -/
def now : ScreenCall → Time
  | .tick _ _ t => t
  | .submit t => t
  | .expectHooks t => t

end ScreenCall

/-- What a caller sees of a screen-driven session, with the clock readings. -/
inductive ScreenEvent
  | emitted (now : Time) (a : Action)
  | submitted (now : Time)
  deriving DecidableEq

namespace ScreenEvent

/-- The clock reading of the event. -/
def now : ScreenEvent → Time
  | .emitted t _ => t
  | .submitted t => t

def isSubmit : ScreenEvent → Bool
  | .submitted _ => true
  | _ => false

/-- The decision a `waiting_for_user` publish puts up. -/
def shows : ScreenEvent → Option DecisionKey
  | .emitted _ (.publish p) => if p.asks then some p.decisionKey else none
  | _ => none

def withdraws : ScreenEvent → Option DecisionKey
  | .emitted _ (.withdraw key _) => some key
  | _ => none

/-- A withdraw of the decision, or a submit, takes it down. -/
def takesDown (key : DecisionKey) (ev : ScreenEvent) : Bool :=
  ev.isSubmit || ev.withdraws == some key

/-- The meaning of a decision that a withdraw takes down. -/
def withdrawsFp (ev : ScreenEvent) : Option String :=
  match ev.withdraws with
  | some (.screen _ fp) => some fp
  | _ => none

/-- The meaning of a free-text decision that is put up. -/
def showsFreeText (ev : ScreenEvent) : Option String :=
  match ev.shows with
  | some (.screen .freeText fp) => some fp
  | _ => none

/-- An event that leaves the display alone. -/
structure IsPlain (ev : ScreenEvent) : Prop where
  shows : ev.shows = none
  withdraws : ev.withdraws = none
  submits : ev.isSubmit = false

theorem isPlain_emitted {a : Action} (plain : a.isAdvisory = true ∨ a = .finalize) (now : Time) :
    IsPlain (.emitted now a) := by
  rcases plain with advisory | rfl
  · obtain ⟨p, rfl, kind, -⟩ := a.isAdvisory_iff.mp advisory
    exact ⟨by simp [ScreenEvent.shows, Publish.asks, kind], rfl, rfl⟩
  · exact ⟨rfl, rfl, rfl⟩

end ScreenEvent

namespace BeliefEngine

/-- The engine as a machine over the calls of a screen-driven session. -/
def screenMachine (cfg : BeliefConfig) : Core.Machine BeliefEngine ScreenCall ScreenEvent where
  step e c :=
    ((react cfg e c.input).1,
      (react cfg e c.input).2.map (.emitted c.now) ++
        match c with
        | .submit t => [.submitted t]
        | _ => [])

/-! ### What a tick does to the display -/

/-- What the engine remembers of the decision on display and of the last one it withdrew. -/
def display (e : BeliefEngine) :
    Option DecisionKey × Option String × Option String × Option Time :=
  (e.publishedKey, e.publishedSemanticFp, e.lastWithdrawnFp, e.withdrawnCooldownUntil)

section Frames

variable (cfg : BeliefConfig) (e : BeliefEngine) (obs : Observation) (now : Time)

@[simp] theorem setControl_display (control : ControlState) (phase : Phase) :
    (e.setControl control phase).display = e.display := rfl

@[simp] theorem setPhase_display (phase : Phase) : (e.setPhase phase).display = e.display := rfl

@[simp] theorem setIntervention_display (active : Bool) :
    (e.setIntervention active).display = e.display := rfl

@[simp] theorem leavePrompt_display : e.leavePrompt.display = e.display := rfl

@[simp] theorem clearEcho_display : e.clearEcho.display = e.display := rfl

@[simp] theorem refreshState_display : (refreshState cfg e obs now).display = e.display := rfl

@[simp] theorem endPostSubmit_display (reason : ClearReason) :
    (e.endPostSubmit reason).display = e.display := rfl

@[simp] theorem trackSemantic_display : (e.trackSemantic obs now).display = e.display := by
  unfold trackSemantic
  split <;> rfl

@[simp] theorem trackHeartbeat_display : (e.trackHeartbeat obs now).display = e.display := by
  unfold trackHeartbeat
  split
  · rfl
  · split <;> rfl

@[simp] theorem maybeExpireStartupGrace_display :
    (maybeExpireStartupGrace cfg e now).display = e.display := by
  rcases maybeExpireStartupGrace_cases cfg e now with same | ⟨-, same⟩ <;> simp [same, display]

@[simp] theorem suppressed_display (reason : SuppressReason) :
    (e.suppressed reason).display = e.display := by
  unfold suppressed
  split <;> rfl

@[simp] theorem postSubmitBaseline_display : (e.postSubmitBaseline obs).display = e.display := by
  unfold postSubmitBaseline
  split <;> rfl

@[simp] theorem clockEcho_display : (e.clockEcho now).display = e.display := by
  unfold clockEcho
  split <;> rfl

@[simp] theorem trackCandidate_display : (e.trackCandidate obs now).display = e.display := by
  unfold trackCandidate
  dsimp only
  split <;> rfl

@[simp] theorem updatePostSubmit_display : (updatePostSubmit cfg e obs now).display = e.display := by
  unfold updatePostSubmit
  split
  · rfl
  · dsimp only
    split
    · simp
    · split
      · simp
      · split <;> simp

@[simp] theorem escalate_display (phase : Phase) (hint : Hint) :
    (escalate cfg e obs now phase hint).1.display = e.display := by
  unfold escalate
  dsimp only
  split <;> rfl

@[simp] theorem watchdog_display : (watchdog cfg e obs now).1.display = e.display := by
  unfold watchdog
  split <;> simp

end Frames

section Steps

variable (cfg : BeliefConfig) (e : BeliefEngine) (obs : Observation) (now : Time)

/-- The first half of a step: the standing decision stays, or it is withdrawn. -/
inductive TakeDown : BeliefEngine × List Action → Prop
  | kept (e' : BeliefEngine) (same : e'.display = e.display) : TakeDown (e', [])
  | gone (e' : BeliefEngine) (key : DecisionKey) (reason : WithdrawReason)
      (published : e.publishedKey = some key)
      (same : e'.display = (forgetPublished cfg e now).display) :
      TakeDown (e', [.withdraw key reason])

/-- The meaning on the screen is the one withdrawn last, and its cooldown is running. -/
def cooling : Bool :=
  some obs.semanticFp == e.lastWithdrawnFp && e.withdrawnCooldownUntil != none &&
    !reached e.withdrawnCooldownUntil now

/-- The second half: nothing is put up, or the prompt on the screen is. -/
inductive Offer : BeliefEngine × List Action → Prop
  | quiet (e' : BeliefEngine) (actions : List Action) (same : e'.display = e.display)
      (plain : ∀ a ∈ actions, a.isAdvisory = true ∨ a = .finalize) : Offer (e', actions)
  | shown (e' : BeliefEngine) (p : Publish) (free : e.publishedKey = none)
      (asks : p.asks = true) (named : p.decisionKey = .screen obs.promptKind obs.semanticFp)
      (cooled : obs.promptKind = .freeText → cooling e obs now = false)
      (same : e'.display = (some p.decisionKey, some obs.semanticFp, e.lastWithdrawnFp,
        e.withdrawnCooldownUntil)) :
      Offer (e', [.publish p])

variable {cfg e obs now}

/-- Bookkeeping before a half does not count. -/
theorem TakeDown.after {e₀ : BeliefEngine} {r : BeliefEngine × List Action}
    (down : TakeDown cfg e now r) (start : e.display = e₀.display) : TakeDown cfg e₀ now r := by
  have key : e.publishedKey = e₀.publishedKey := congrArg Prod.fst start
  have fp : e.publishedSemanticFp = e₀.publishedSemanticFp := congrArg (·.2.1) start
  cases down with
  | kept e' same => exact .kept e' (same.trans start)
  | gone e' k reason published same =>
    refine .gone e' k reason (key ▸ published) (same.trans ?_)
    simp [display, forgetPublished, fp]

theorem Offer.after {e₀ : BeliefEngine} {r : BeliefEngine × List Action}
    (offer : Offer e obs now r) (start : e.display = e₀.display) : Offer e₀ obs now r := by
  have key : e.publishedKey = e₀.publishedKey := congrArg Prod.fst start
  have fp : e.lastWithdrawnFp = e₀.lastWithdrawnFp := congrArg (·.2.2.1) start
  have upTo : e.withdrawnCooldownUntil = e₀.withdrawnCooldownUntil := congrArg (·.2.2.2) start
  cases offer with
  | quiet e' actions same plain => exact .quiet e' actions (same.trans start) plain
  | shown e' p free asks named cooled same =>
    refine .shown e' p (key ▸ free) asks named (fun kind => ?_) (by rw [same, fp, upTo])
    simpa only [cooling, fp, upTo] using cooled kind

/-- Bookkeeping after the offer does not count. -/
theorem Offer.before {r : BeliefEngine × List Action} {e' : BeliefEngine}
    (offer : Offer e obs now r) (stop : e'.display = r.1.display) : Offer e obs now (e', r.2) := by
  cases offer with
  | quiet e₁ actions same plain => exact .quiet e' actions (stop.trans same) plain
  | shown e₁ p free asks named cooled same =>
    exact .shown e' p free asks named cooled (stop.trans same)

variable (cfg e obs now)

theorem withdraw_takeDown (reason : WithdrawReason) :
    TakeDown cfg e now (withdraw cfg e reason now) := by
  cases published : e.publishedKey with
  | none => simpa [withdraw, published] using TakeDown.kept e rfl
  | some key =>
    simpa [withdraw, published] using
      TakeDown.gone (forgetPublished cfg e now) key reason published rfl

theorem publishDecision_offer (free : e.publishedKey = none)
    (cooled : obs.promptKind = .freeText → cooling e obs now = false) :
    Offer e obs now (e.publishDecision obs (.screen obs.promptKind obs.semanticFp)) :=
  .shown _ _ free rfl rfl cooled rfl

theorem suppressed_offer (reason : SuppressReason) :
    Offer e obs now (e.suppressed reason, []) :=
  .quiet _ [] (suppressed_display e reason) (by simp)

theorem escalate_offer (phase : Phase) (hint : Hint) :
    Offer e obs now (escalate cfg e obs now phase hint) :=
  .quiet _ _ (escalate_display cfg e obs now phase hint)
    fun a member => .inl (escalate_advisory cfg e obs now phase hint a member)

theorem confirmFreeText_offer (free : e.publishedKey = none) :
    Offer e obs now
      (confirmFreeText cfg e obs now (.screen obs.promptKind obs.semanticFp)) := by
  unfold confirmFreeText
  split
  · -- the echo is still in the box: suppressed, or an advisory
    refine Offer.after ?_ (clockEcho_display e now)
    dsimp only
    split
    · exact suppressed_offer _ _ _ _
    · exact escalate_offer _ _ _ _ _ _
  · refine Offer.after ?_ (clearEcho_display e)
    dsimp only
    split
    · exact suppressed_offer _ _ _ _
    · split
      · exact suppressed_offer _ _ _ _
      · split
        · exact suppressed_offer _ _ _ _
        · -- the publish: the cooldown was checked two branches above
          next warm _ =>
          refine publishDecision_offer _ _ _ free fun _ => ?_
          simpa [cooling] using warm

theorem offerPrompt_offer (free : e.publishedKey = none) :
    Offer e obs now (offerPrompt cfg e obs now) := by
  have tracked : ((e.trackCandidate obs now).setPhase .pauseCandidate).display = e.display := by
    simp
  have unpublished : ((e.trackCandidate obs now).setPhase .pauseCandidate).publishedKey = none :=
    (congrArg Prod.fst tracked).trans free
  unfold offerPrompt
  refine Offer.after ?_ tracked
  dsimp only
  split
  · next blocking =>
    refine publishDecision_offer _ _ _ unpublished fun kind => ?_
    simp [kind] at blocking
  · split
    · exact suppressed_offer _ _ _ _
    · exact confirmFreeText_offer _ _ _ _ unpublished

/-- One step of the display: first a withdraw, then an offer. -/
def DisplayStep (r : BeliefEngine × List Action) : Prop :=
  ∃ e₁ down up, TakeDown cfg e now (e₁, down) ∧ Offer e₁ obs now (r.1, up) ∧ r.2 = down ++ up

variable {cfg e obs now}

theorem DisplayStep.frame {e₀ e' : BeliefEngine} {r : BeliefEngine × List Action}
    (step : DisplayStep cfg e obs now r) (start : e.display = e₀.display)
    (stop : e'.display = r.1.display) : DisplayStep cfg e₀ obs now (e', r.2) := by
  obtain ⟨e₁, down, up, taken, offered, split⟩ := step
  exact ⟨e₁, down, up, taken.after start, offered.before stop, split⟩

variable (cfg e obs now)

theorem onPrompt_display : DisplayStep cfg e obs now (onPrompt cfg e obs now) := by
  have offer : ∀ e : BeliefEngine, Offer e obs now
      (if e.publishedKey.isSome then (e.setPhase .pauseCandidate, [])
        else offerPrompt cfg e obs now) := by
    intro e
    split
    · exact .quiet _ [] rfl (by simp)
    · next free => exact offerPrompt_offer cfg e obs now (by simpa using free)
  unfold onPrompt
  refine ⟨_, _, _, TakeDown.after ?_ (setIntervention_display e false), offer _, rfl⟩
  split
  · exact withdraw_takeDown cfg _ now _
  · exact .kept _ rfl

theorem onBusy_display : DisplayStep cfg e obs now (onBusy cfg e obs now) := by
  refine ⟨_, _, _, withdraw_takeDown cfg e now .turnResumed, ?_, rfl⟩
  have watched : (watchdog cfg (withdraw cfg e .turnResumed now).1.leavePrompt obs now).1.display =
      (withdraw cfg e .turnResumed now).1.display := by simp
  exact .quiet _ _ watched fun a member => .inl (watchdog_advisory cfg _ obs now a member)

theorem tickScreen_display : DisplayStep cfg e obs now (tickScreen cfg e obs now) := by
  have refreshed : ∀ (e₁ : BeliefEngine) (r : BeliefEngine × List Action),
      e₁.display = e.display → DisplayStep cfg e₁ obs now r →
        DisplayStep cfg e obs now (refreshState cfg r.1 obs now, r.2) :=
    fun e₁ r start step => step.frame start (refreshState_display cfg r.1 obs now)
  refine refreshed (updatePostSubmit cfg e obs now) _ (updatePostSubmit_display cfg e obs now) ?_
  split
  · exact onPrompt_display cfg _ obs now
  · exact onBusy_display cfg _ obs now

/-- A tick of a session that hooks do not own. -/
theorem tick_display (hookless : e.hookMode ≠ .active) (ctx : ObservationCtx) :
    DisplayStep cfg e obs now (tick cfg e obs ctx now) := by
  have tracked : (e.track obs now).display = e.display := by simp [track]
  have mode : (e.track obs now).hookMode = e.hookMode := hookMode_of_core (by simp [track])
  unfold tick
  dsimp only
  split
  · exact ⟨_, [], _, .kept _ tracked, .quiet _ [.finalize] rfl (by simp), rfl⟩
  · have expired := maybeExpireStartupGrace_display cfg (e.track obs now) now
    have fallback : (maybeExpireStartupGrace cfg (e.track obs now) now).hookMode ≠ .active := by
      rcases maybeExpireStartupGrace_cases cfg (e.track obs now) now with same | ⟨-, same⟩
      · rw [same, mode]
        exact hookless
      · rw [same]
        simp
    rw [tickAlive, if_neg fallback]
    exact (tickScreen_display cfg _ obs now).frame (expired.trans tracked) rfl

/-- A session that hooks do not own stays so. -/
theorem screen_hookless (hookless : e.hookMode ≠ .active) (c : ScreenCall) :
    ((screenMachine cfg).step e c).1.hookMode ≠ .active := by
  cases c with
  | submit t => exact hookless
  | expectHooks t =>
    simp only [screenMachine, react, ScreenCall.input, expectHooks]
    split <;> exact hookless
  | tick obs ctx t =>
    have effect := tick_effect cfg e obs ctx t
    simp only [screenMachine, react, ScreenCall.input]
    generalize tick cfg e obs ctx t = r at effect
    cases effect with
    | terminal e' same dead => exact (hookMode_of_core same).trans_ne hookless
    | held e' same active owned => exact absurd active hookless
    | reconciled e' same settled =>
      exact (hookMode_of_core same).trans_ne hookless
    | watched e' actions active free unsettled mode memory published goesOn advisories =>
      exact absurd active hookless
    | screen r hookless fallback memory shown noIdle => exact fallback

end Steps

/-! ### The display and the last withdraw, over a run -/

/-- The decision on display. -/
def onScreen : Core.Slot ScreenEvent DecisionKey where
  fills := ScreenEvent.shows
  clears := ScreenEvent.takesDown

/-- A decision goes up on an empty display, and only the one on display is withdrawn. -/
def DisplayRule (ev : ScreenEvent) (shown : Option DecisionKey) : Prop :=
  (ev.shows.isSome → shown = none) ∧ ∀ key, ev.withdraws = some key → shown = some key

/-- The meaning withdrawn last, with the time; a submit forgets it. -/
def lastWithdrawn : Core.Slot ScreenEvent (String × Time) where
  fills ev := ev.withdrawsFp.map (·, ev.now)
  clears _ ev := ev.isSubmit

/-- A free-text decision whose meaning was withdrawn last waits for the cooldown. -/
def CooldownRule (cooldown : Time) (ev : ScreenEvent) (gone : Option (String × Time)) : Prop :=
  ∀ fp t, gone = some (fp, t) → ev.showsFreeText = some fp → t + cooldown ≤ ev.now

theorem onScreen_plain {events : List ScreenEvent} (plain : ∀ ev ∈ events, ev.IsPlain)
    (shown : Option DecisionKey) :
    onScreen.MeetsAt DisplayRule shown events ∧ onScreen.held shown events = shown := by
  induction events with
  | nil => exact ⟨trivial, rfl⟩
  | cons ev rest ih =>
    obtain ⟨shows, withdraws, submits⟩ := plain ev (by simp)
    have stays : onScreen.next shown ev = shown := by
      cases shown <;> simp [Core.Slot.next, onScreen, shows, withdraws, submits,
        ScreenEvent.takesDown]
    obtain ⟨meets, held⟩ := ih fun x member => plain x (by simp [member])
    rw [Core.Slot.meetsAt_cons, Core.Slot.held_cons, stays]
    exact ⟨⟨⟨by simp [shows], by simp [withdraws]⟩, meets⟩, held⟩

theorem lastWithdrawn_plain (cooldown : Time) {events : List ScreenEvent}
    (plain : ∀ ev ∈ events, ev.IsPlain) (gone : Option (String × Time)) :
    lastWithdrawn.MeetsAt (CooldownRule cooldown) gone events ∧
      lastWithdrawn.held gone events = gone := by
  induction events with
  | nil => exact ⟨trivial, rfl⟩
  | cons ev rest ih =>
    obtain ⟨shows, withdraws, submits⟩ := plain ev (by simp)
    have stays : lastWithdrawn.next gone ev = gone := by
      cases gone <;> simp [Core.Slot.next, lastWithdrawn, withdraws, submits,
        ScreenEvent.withdrawsFp]
    obtain ⟨meets, held⟩ := ih fun x member => plain x (by simp [member])
    rw [Core.Slot.meetsAt_cons, Core.Slot.held_cons, stays]
    exact ⟨⟨by simp [CooldownRule, ScreenEvent.showsFreeText, shows], meets⟩, held⟩

theorem plain_map {actions : List Action}
    (plain : ∀ a ∈ actions, a.isAdvisory = true ∨ a = .finalize) (now : Time) :
    ∀ ev ∈ actions.map (ScreenEvent.emitted now), ev.IsPlain := by
  intro ev member
  obtain ⟨a, written, rfl⟩ := List.mem_map.mp member
  exact ScreenEvent.isPlain_emitted (plain a written) now

section Runs

variable (cfg : BeliefConfig) {e : BeliefEngine}

/-- The engine remembers the decision on display. -/
def TracksDisplay (e : BeliefEngine) (shown : Option DecisionKey) : Prop :=
  e.hookMode ≠ .active ∧ shown = e.publishedKey

/-- The engine remembers the last withdraw, and its decisions are named by what they mean. -/
structure TracksWithdraw (e : BeliefEngine) (gone : Option (String × Time)) : Prop where
  hookless : e.hookMode ≠ .active
  named : ∀ key, e.publishedKey = some key →
    ∃ kind fp, key = .screen kind fp ∧ e.publishedSemanticFp = some fp
  meaning : e.lastWithdrawnFp = gone.map Prod.fst
  cooldown : e.withdrawnCooldownUntil = gone.map fun w => w.2 + cfg.withdrawnCooldown

theorem displayStep_shown {obs : Observation} {now : Time} {r : BeliefEngine × List Action}
    (step : DisplayStep cfg e obs now r) :
    onScreen.MeetsAt DisplayRule e.publishedKey (r.2.map (.emitted now)) ∧
      onScreen.held e.publishedKey (r.2.map (.emitted now)) = r.1.publishedKey := by
  obtain ⟨e₁, down, up, taken, offered, split⟩ := step
  have first : onScreen.MeetsAt DisplayRule e.publishedKey (down.map (.emitted now)) ∧
      onScreen.held e.publishedKey (down.map (.emitted now)) = e₁.publishedKey := by
    cases taken with
    | kept e₁ same => exact ⟨trivial, (congrArg Prod.fst same).symm⟩
    | gone e₁ key reason published same =>
      have cleared : e₁.publishedKey = none := congrArg Prod.fst same
      simp [DisplayRule, published, cleared, Core.Slot.next, onScreen, ScreenEvent.shows,
        ScreenEvent.withdraws, ScreenEvent.takesDown]
  have second : onScreen.MeetsAt DisplayRule e₁.publishedKey (up.map (.emitted now)) ∧
      onScreen.held e₁.publishedKey (up.map (.emitted now)) = r.1.publishedKey := by
    generalize r.1 = e' at offered
    cases offered with
    | quiet e' actions same plain =>
      have stays : e'.publishedKey = e₁.publishedKey := congrArg Prod.fst same
      rw [stays]
      exact onScreen_plain (plain_map plain now) _
    | shown e' p free asks named cooled same =>
      have filled : e'.publishedKey = some p.decisionKey := congrArg Prod.fst same
      simp [DisplayRule, free, filled, Core.Slot.next, onScreen, ScreenEvent.shows,
        ScreenEvent.withdraws, asks]
  rw [split, List.map_append, Core.Slot.meetsAt_append, Core.Slot.held_append, first.2]
  exact ⟨⟨first.1, second.1⟩, second.2⟩

theorem displayStep_withdrawn {obs : Observation} {now : Time} {r : BeliefEngine × List Action}
    (step : DisplayStep cfg e obs now r) {gone : Option (String × Time)}
    (tracks : TracksWithdraw cfg e gone) (stays : r.1.hookMode ≠ .active) :
    lastWithdrawn.MeetsAt (CooldownRule cfg.withdrawnCooldown) gone (r.2.map (.emitted now)) ∧
      TracksWithdraw cfg r.1 (lastWithdrawn.held gone (r.2.map (.emitted now))) := by
  obtain ⟨e₁, down, up, taken, offered, split⟩ := step
  obtain ⟨hookless, named, meaning, upTo⟩ := tracks
  have first : lastWithdrawn.MeetsAt (CooldownRule cfg.withdrawnCooldown) gone
        (down.map (.emitted now)) ∧
      (∀ key, e₁.publishedKey = some key →
        ∃ kind fp, key = .screen kind fp ∧ e₁.publishedSemanticFp = some fp) ∧
      e₁.lastWithdrawnFp = (lastWithdrawn.held gone (down.map (.emitted now))).map Prod.fst ∧
      e₁.withdrawnCooldownUntil = (lastWithdrawn.held gone (down.map (.emitted now))).map
        fun w => w.2 + cfg.withdrawnCooldown := by
    cases taken with
    | kept e₁ same =>
      simp only [display, Prod.mk.injEq] at same
      obtain ⟨key, fp, last, cooldown⟩ := same
      exact ⟨trivial, by rwa [key, fp], last.trans meaning, cooldown.trans upTo⟩
    | gone e₁ key reason published same =>
      simp only [display, forgetPublished, Prod.mk.injEq] at same
      obtain ⟨free, -, last, cooldown⟩ := same
      obtain ⟨kind, fp, rfl, known⟩ := named key published
      simp [CooldownRule, free, last, cooldown, known, Core.Slot.next, lastWithdrawn,
        ScreenEvent.showsFreeText, ScreenEvent.shows, ScreenEvent.withdraws,
        ScreenEvent.withdrawsFp, ScreenEvent.now]
  obtain ⟨meets, named₁, meaning₁, upTo₁⟩ := first
  rw [split, List.map_append, Core.Slot.meetsAt_append, Core.Slot.held_append]
  generalize lastWithdrawn.held gone (down.map (.emitted now)) = gone₁ at meaning₁ upTo₁ ⊢
  suffices second : lastWithdrawn.MeetsAt (CooldownRule cfg.withdrawnCooldown) gone₁
        (up.map (.emitted now)) ∧
      TracksWithdraw cfg r.1 (lastWithdrawn.held gone₁ (up.map (.emitted now))) from
    ⟨⟨meets, second.1⟩, second.2⟩
  generalize r.1 = e' at offered stays
  cases offered with
  | quiet e' actions same plain =>
    simp only [display, Prod.mk.injEq] at same
    obtain ⟨key, fp, last, cooldown⟩ := same
    obtain ⟨quiet, held⟩ := lastWithdrawn_plain cfg.withdrawnCooldown
      (plain_map plain now) gone₁
    rw [held]
    exact ⟨quiet, stays, by rwa [key, fp], last.trans meaning₁, cooldown.trans upTo₁⟩
  | shown e' p free asks shownAs cooled same =>
    simp only [display, Prod.mk.injEq] at same
    obtain ⟨key, fp, last, cooldown⟩ := same
    have held : lastWithdrawn.held gone₁ ([Action.publish p].map (.emitted now)) = gone₁ := by
      cases gone₁ <;> simp [Core.Slot.next, lastWithdrawn, ScreenEvent.withdraws,
        ScreenEvent.withdrawsFp, ScreenEvent.isSubmit]
    rw [held]
    constructor
    · refine ⟨?_, trivial⟩
      -- the meaning withdrawn last is up again: its cooldown is over
      intro fp' t stands free
      simp only [ScreenEvent.showsFreeText, ScreenEvent.shows, asks, if_true, shownAs] at free
      cases kind : obs.promptKind <;> simp only [kind, reduceCtorEq, Option.some.injEq] at free
      have cold := cooled kind
      simp only [cooling, meaning₁, upTo₁, stands, Option.map_some, free, beq_self_eq_true,
        Bool.true_and, reached, Bool.and_eq_false_iff, Bool.not_eq_false', decide_eq_true_eq,
        bne_eq_false_iff_eq, reduceCtorEq, false_or] at cold
      exact cold
    · refine ⟨stays, ?_, last.trans meaning₁, cooldown.trans upTo₁⟩
      intro key' published
      rw [key, Option.some.injEq] at published
      exact ⟨_, _, published.symm.trans shownAs, fp⟩

theorem tracksDisplay_step {shown : Option DecisionKey} (c : ScreenCall)
    (tracks : TracksDisplay e shown) :
    onScreen.MeetsAt DisplayRule shown ((screenMachine cfg).step e c).2 ∧
      TracksDisplay ((screenMachine cfg).step e c).1
        (onScreen.held shown ((screenMachine cfg).step e c).2) := by
  obtain ⟨hookless, rfl⟩ := tracks
  have stays := screen_hookless cfg e hookless c
  cases c with
  | tick obs ctx t =>
    obtain ⟨meets, held⟩ := displayStep_shown cfg (tick_display cfg e obs t hookless ctx)
    simp only [screenMachine, react, ScreenCall.input, ScreenCall.now, List.append_nil] at stays ⊢
    exact ⟨meets, stays, held⟩
  | submit t =>
    refine ⟨?_, stays, ?_⟩
    · exact ⟨⟨by simp [ScreenEvent.shows], by simp [ScreenEvent.withdraws]⟩, trivial⟩
    · cases published : e.publishedKey <;>
        simp [screenMachine, react, ScreenCall.input, onSubmit, Core.Slot.next, onScreen,
          ScreenEvent.shows, ScreenEvent.takesDown, ScreenEvent.isSubmit]
  | expectHooks t =>
    refine ⟨trivial, stays, ?_⟩
    simp only [screenMachine, react, ScreenCall.input, expectHooks, List.map_nil,
      List.append_nil, Core.Slot.held_nil]
    split <;> rfl

theorem tracksWithdraw_step {gone : Option (String × Time)} (c : ScreenCall)
    (tracks : TracksWithdraw cfg e gone) :
    lastWithdrawn.MeetsAt (CooldownRule cfg.withdrawnCooldown) gone
        ((screenMachine cfg).step e c).2 ∧
      TracksWithdraw cfg ((screenMachine cfg).step e c).1
        (lastWithdrawn.held gone ((screenMachine cfg).step e c).2) := by
  have stays := screen_hookless cfg e tracks.hookless c
  cases c with
  | tick obs ctx t =>
    have step := displayStep_withdrawn cfg (tick_display cfg e obs t tracks.hookless ctx) tracks
      stays
    simpa only [screenMachine, react, ScreenCall.input, ScreenCall.now, List.append_nil] using step
  | submit t =>
    have forgets : lastWithdrawn.held gone [.submitted t] = none := by
      cases gone <;> simp [Core.Slot.next, lastWithdrawn, ScreenEvent.withdraws,
        ScreenEvent.withdrawsFp, ScreenEvent.isSubmit]
    refine ⟨⟨by simp [CooldownRule, ScreenEvent.showsFreeText, ScreenEvent.shows], trivial⟩, ?_⟩
    simp only [screenMachine, react, ScreenCall.input, List.map_nil, List.nil_append, forgets]
    exact ⟨stays, by rintro _ ⟨⟩, rfl, rfl⟩
  | expectHooks t =>
    refine ⟨trivial, ?_⟩
    simp only [screenMachine, react, ScreenCall.input, expectHooks, List.map_nil,
      List.append_nil, Core.Slot.held_nil]
    split
    · exact ⟨tracks.hookless, tracks.named, tracks.meaning, tracks.cooldown⟩
    · exact tracks

end Runs

/-! ### The law of the display -/

/-- The decisions a caller has seen put up, and neither taken down nor answered since. -/
def standing (events : List ScreenEvent) : List DecisionKey :=
  events.foldl (fun shown ev =>
    match ev.shows with
    | some key => key :: shown
    | none => shown.filter fun key => !ev.takesDown key) []

/-- What a screen-driven session shows. -/
structure DisplayLaw (cooldown : Time) (events : List ScreenEvent) : Prop where
  /-- Between two shown decisions the first one is withdrawn, or a submit comes. -/
  between : ∀ before p mid q after key, events = before ++ p :: (mid ++ q :: after) →
    p.shows = some key → q.shows.isSome → ∃ x ∈ mid, x.takesDown key = true
  /-- At any time at most one decision stands. -/
  single : ∀ before after, events = before ++ after → (standing before).length ≤ 1
  /-- A withdrawn decision was shown, and stood until then. -/
  shownFirst : ∀ before w after key, events = before ++ w :: after → w.withdraws = some key →
    ∃ earlier p mid, before = earlier ++ p :: mid ∧ p.shows = some key ∧
      ∀ x ∈ mid, x.shows = none ∧ x.takesDown key = false
  /-- The meaning withdrawn last is no free-text decision again before the cooldown passed, unless
  a submit came in between. -/
  staysAway : ∀ before w mid p after fp, events = before ++ w :: (mid ++ p :: after) →
    w.withdrawsFp = some fp → p.showsFreeText = some fp →
    (∀ x ∈ mid, x.withdrawsFp = none ∧ x.isSubmit = false) → w.now + cooldown ≤ p.now

/-- On a display where decisions never stack, what stands is what the slot holds. -/
theorem standing_eq {events : List ScreenEvent}
    (meets : onScreen.MeetsAt DisplayRule none events) :
    standing events = (onScreen.held none events).toList := by
  induction events using List.reverseRecOn with
  | nil => rfl
  | append_singleton events ev ih =>
    rw [Core.Slot.meetsAt_append] at meets
    obtain ⟨earlier, ⟨free, -⟩, -⟩ := meets
    have before := ih earlier
    rw [Core.Slot.held_append, Core.Slot.held_cons, Core.Slot.held_nil]
    simp only [standing, List.foldl_append, List.foldl_cons, List.foldl_nil] at before ⊢
    rw [before]
    cases shows : ev.shows with
    | some key =>
      rw [free (by simp [shows])]
      simp [Core.Slot.next, onScreen, shows]
    | none =>
      cases held : onScreen.held none events with
      | none => simp [Core.Slot.next, onScreen, shows]
      | some key =>
        cases down : ev.takesDown key <;>
          simp [Core.Slot.next, onScreen, shows, Option.filter, down]

/-- What the two slots say along a run, in terms of positions. -/
theorem displayLaw_of_meets {cooldown : Time} {events : List ScreenEvent}
    (shown : onScreen.MeetsAt DisplayRule none events)
    (gone : lastWithdrawn.MeetsAt (CooldownRule cooldown) none events) :
    DisplayLaw cooldown events where
  between before p mid q after key split puts again := by
    rw [split, Core.Slot.meetsAt_append, Core.Slot.meetsAt_cons] at shown
    have filled : onScreen.next (onScreen.held none before) p = some key := by
      simp [Core.Slot.next, onScreen, puts]
    have rest := shown.2.2
    rw [filled] at rest
    exact onScreen.cleared_of_meetsAt (fun x v fills rule => rule.1 fills) rest again
  single before after split := by
    rw [split, Core.Slot.meetsAt_append] at shown
    rw [standing_eq shown.1]
    cases onScreen.held none before <;> simp
  shownFirst before w after key split withdraws := by
    have held := ((onScreen.meetsAt_iff _ _ _).mp shown before w after split).2 key withdraws
    obtain ⟨earlier, p, mid, split', puts, lasts⟩ := (onScreen.held_eq_some_iff _ _).mp held
    refine ⟨earlier, p, mid, split', puts, fun x member => ?_⟩
    obtain ⟨unshown, stays⟩ := not_or.mp (lasts x member)
    exact ⟨by simpa [onScreen] using unshown, by simpa [onScreen] using stays⟩
  staysAway before w mid p after fp split withdraws shows quiet := by
    have rule := (lastWithdrawn.meetsAt_iff _ _ _).mp gone (before ++ w :: mid) p after
      (by simp [split])
    have held : lastWithdrawn.held none (before ++ w :: mid) = some (fp, w.now) := by
      refine (lastWithdrawn.held_eq_some_iff _ _).mpr
        ⟨before, w, mid, rfl, by simp [lastWithdrawn, withdraws], fun x member => ?_⟩
      obtain ⟨none, unsubmitted⟩ := quiet x member
      simp [Core.Slot.Ends, lastWithdrawn, none, unsubmitted]
    exact rule fp w.now held shows

/-- Every run of a screen-driven session keeps the law of the display. -/
theorem display_law (cfg : BeliefConfig) (calls : List ScreenCall) :
    DisplayLaw cfg.withdrawnCooldown ((screenMachine cfg).outputs {} calls) := by
  have fresh : (({} : BeliefEngine)).hookMode ≠ .active := by decide
  have empty : TracksDisplay {} none := ⟨fresh, rfl⟩
  have untouched : TracksWithdraw cfg {} none := ⟨fresh, nofun, rfl, rfl⟩
  have shown := onScreen.meetsAt_outputs (screenMachine cfg) DisplayRule
    (fun _ _ c tracks => tracksDisplay_step cfg c tracks) empty calls
  have gone := lastWithdrawn.meetsAt_outputs (screenMachine cfg)
    (CooldownRule cfg.withdrawnCooldown)
    (fun _ _ c tracks => tracksWithdraw_step cfg c tracks) untouched calls
  exact displayLaw_of_meets shown.1 gone.1

/-- A prompt, its withdraw, a submit, and new output with the same prompt half a second later. -/
def submitInCooldown : List ScreenCall :=
  let prompt (content : String) : Observation :=
    { promptKind := .freeText, semanticFp := "a", promptFp := "p", contentFp := content }
  let living : ObservationCtx := { childAlive := true }
  [.tick (prompt "c") living 0,
    .tick (prompt "c") living (1 / 2),
    .tick { promptKind := .none, semanticFp := "b" } living 1,
    .submit 1,
    .tick (prompt "c") living 1,
    .tick (prompt "d") living (5 / 4),
    .tick (prompt "d") living (3 / 2)]

/-- A submit starts a fresh turn and forgets the withdraw: without it in the statement the
cooldown does not hold. -/
theorem submit_ends_cooldown :
    ¬ ∀ before w mid p after fp,
      (screenMachine {}).outputs {} submitInCooldown = before ++ w :: (mid ++ p :: after) →
      w.withdrawsFp = some fp → p.showsFreeText = some fp →
      (∀ x ∈ mid, x.withdrawsFp = none) →
      w.now + ({} : BeliefConfig).withdrawnCooldown ≤ p.now := by
  intro cooled
  have early := cooled (((screenMachine {}).outputs {} submitInCooldown).take 1)
    (.emitted 1 (.withdraw (.screen .freeText "a") .turnResumed)) [.submitted 1]
    (.emitted (3 / 2) (.publish
      { kind := .waitingForUser, respondable := true, decisionKey := .screen .freeText "a"
        payload := { promptKind := some .freeText } })) [] "a"
    (by decide +kernel) (by decide) (by decide) (by decide)
  exact absurd early (by decide +kernel)

end BeliefEngine

end Nelix.Daemon
