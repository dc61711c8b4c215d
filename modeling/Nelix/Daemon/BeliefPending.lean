import Nelix.Core.Slot
import Nelix.Daemon.BeliefRuns

/-!
# Pending decisions

Does the engine close every respondable decision before it publishes an idle or opens an epoch?
It does exactly as long as no `UserPromptSubmit`, and no lost-`Stop` reconciliation, comes while
a gate is pending: these two drop the gate or leave it standing without a withdraw.
-/
namespace Nelix.Daemon

/-- The decision on display, over the events of a run: a respondable publish fills the slot and
supersedes what was there, a withdraw or an answer of its key clears it. -/
def onDisplay : Core.Slot BeliefEvent DecisionKey where
  fills
    | .emitted _ (.publish p) => if p.asks then some p.decisionKey else none
    | _ => none
  clears key
    | .emitted _ (.withdraw gone _) => gone == key
    | .answered gone => gone == key
    | _ => false

/-- The points where no decision may be on display: an idle publish, and a new epoch. -/
def BeliefEvent.isMark : BeliefEvent → Bool
  | .emitted _ a => a.isIdle
  | .opened _ => true
  | .answered _ => false

theorem next_emitted (shown : Option DecisionKey) (epoch : Nat) (a : Action) :
    onDisplay.next shown (.emitted epoch a) = a.show shown := by
  cases a with
  | publish p =>
    cases asks : p.asks <;> cases shown <;>
      simp [Core.Slot.next, onDisplay, Action.show, asks]
  | withdraw key reason =>
    cases shown with
    | none => simp [Core.Slot.next, onDisplay, Action.show]
    | some k =>
      by_cases same : k = key
      · simp [Core.Slot.next, onDisplay, Action.show, same]
      · simp [Core.Slot.next, onDisplay, Action.show, same, Ne.symm same]
  | finalize => cases shown <;> simp [Core.Slot.next, onDisplay, Action.show]

theorem held_emitted (shown : Option DecisionKey) (epoch : Nat) (actions : List Action) :
    onDisplay.held shown (actions.map (.emitted epoch)) = shownAfter shown actions := by
  induction actions generalizing shown with
  | nil => rfl
  | cons a rest ih => rw [List.map_cons, Core.Slot.held_cons, next_emitted, ih, shownAfter_cons]

namespace BeliefEngine

variable (cfg : BeliefConfig) {e : BeliefEngine}

/-- The decision that waits for an answer. -/
def pending (e : BeliefEngine) : Option DecisionKey := e.hookPendingKey.or e.publishedKey

/-- A gate is dropped or left standing without a withdraw. -/
def forgets (e : BeliefEngine) (i : Input) : Bool :=
  e.hookPendingKey.isSome &&
    match i with
    | .hook hobs _ => hobs.opensTurn
    | .tick obs ctx now => reconciles cfg e obs ctx now
    | _ => false

/-- Hooks and the screen never have a decision pending at the same time. -/
structure OneOwner (e : BeliefEngine) : Prop where
  hooks : e.hookMode = .active → e.publishedKey = none
  screen : e.hookMode ≠ .active → e.hookPendingKey = none

/-- What a call does to the display: every mark finds it empty, and it shows then what the engine
has pending. -/
def Keeps (e : BeliefEngine) (r : BeliefEngine × List BeliefEvent) : Prop :=
  onDisplay.EmptyAt BeliefEvent.isMark e.pending r.2 ∧ onDisplay.held e.pending r.2 = r.1.pending

theorem emptyAt_emitted (shown : Option DecisionKey) (epoch : Nat) {actions : List Action}
    (silent : ∀ a ∈ actions, a.isIdle = false) :
    onDisplay.EmptyAt BeliefEvent.isMark shown (actions.map (.emitted epoch)) := by
  apply Core.Slot.emptyAt_of_unmarked
  intro ev member
  obtain ⟨a, written, rfl⟩ := List.mem_map.mp member
  exact silent a written

/-- A call whose actions hold no idle and account for the change of the pending decision. -/
theorem keeps_of_shown {e' : BeliefEngine} (epoch : Nat) {actions : List Action}
    (silent : ∀ a ∈ actions, a.isIdle = false)
    (shown : shownAfter e.pending actions = e'.pending) :
    Keeps e (e', actions.map (.emitted epoch)) :=
  ⟨emptyAt_emitted e.pending epoch silent, (held_emitted _ _ _).trans shown⟩

theorem Keeps.append {e₁ e₂ : BeliefEngine} {xs ys : List BeliefEvent} (first : Keeps e (e₁, xs))
    (second : Keeps e₁ (e₂, ys)) : Keeps e (e₂, xs ++ ys) := by
  obtain ⟨empty₁, held₁⟩ := first
  obtain ⟨empty₂, held₂⟩ := second
  constructor
  · rw [Core.Slot.emptyAt_append, held₁]
    exact ⟨empty₁, empty₂⟩
  · rw [Core.Slot.held_append, held₁]
    exact held₂

/-! ### Hooks -/

theorem takeOver_keeps (one : OneOwner e) (now : Time) :
    Keeps e ((takeOver cfg e now).1, (takeOver cfg e now).2.map (.emitted e.turnEpoch)) ∧
      (takeOver cfg e now).1.hookPendingKey = e.hookPendingKey ∧
      (takeOver cfg e now).1.publishedKey = none := by
  obtain ⟨shown, clean⟩ := takeOver_shown cfg e now one.hooks
  have gate := hookPendingKey_of_memory (takeOver_memory cfg e now)
  refine ⟨keeps_of_shown e.turnEpoch ?_ ?_, gate, clean⟩
  · intro a member
    have silent := takeOver_noPublish cfg e now a member
    cases a with
    | publish p => simp [Action.isPublish] at silent
    | withdraw key reason => rfl
    | finalize => rfl
  · by_cases active : e.hookMode = .active
    · have quiet : (takeOver cfg e now).2 = [] := by simp [takeOver, active]
      simp [pending, quiet, gate, clean, one.hooks active]
    · have noGate := one.screen active
      simpa [pending, gate, clean, noGate] using shown

theorem dropPending_shown (e : BeliefEngine) (reason : WithdrawReason) (clean : e.publishedKey = none) :
    shownAfter e.pending (e.dropPending reason).2 = none ∧
      (e.dropPending reason).1.pending = none := by
  cases gate : e.hookPendingKey with
  | none => simp [dropPending, gate, pending, clean]
  | some key => simp [dropPending, gate, pending, clean, Action.show]

theorem dropPending_noIdle (reason : WithdrawReason) :
    ∀ a ∈ (e.dropPending reason).2, a.isIdle = false := by
  cases gate : e.hookPendingKey <;> simp [dropPending, gate, Action.isIdle]

/-- The idle of a `Stop` comes after the withdraw of the gate. -/
theorem closed_keeps (clean : e.publishedKey = none) (interrupted : Bool) (epoch : Nat) :
    Keeps e ((e.endEpoch.dropPending .superseded).1.setControl .idle .idle,
      ((e.endEpoch.dropPending .superseded).2 ++
        [idlePublish e.turnEpoch interrupted none]).map (.emitted epoch)) := by
  obtain ⟨shown, gone⟩ := dropPending_shown e.endEpoch .superseded clean
  have dropped : Keeps e ((e.endEpoch.dropPending .superseded).1,
      (e.endEpoch.dropPending .superseded).2.map (.emitted epoch)) :=
    keeps_of_shown epoch (dropPending_noIdle _) (shown.trans gone.symm)
  rw [List.map_append]
  refine dropped.append ⟨?_, ?_⟩
  · simp [gone]
  · rw [held_emitted]
    have same : ((e.endEpoch.dropPending .superseded).1.setControl .idle .idle).pending =
        (e.endEpoch.dropPending .superseded).1.pending := rfl
    simp [Action.show, idlePublish, Publish.asks, same]

theorem hookEffect_keeps {hobs : HookObservation} {r : BeliefEngine × List Action}
    (effect : HookEffect e hobs r) (clean : e.publishedKey = none) (epoch : Nat)
    (stays : hobs.opensTurn = true → e.hookPendingKey = none) :
    Keeps e (r.1, r.2.map (.emitted epoch) ++
      if hobs.opensTurn then [.opened (epoch + 1)] else []) := by
  cases effect with
  | opened opens =>
    have empty : e.pending = none := by simp [pending, stays opens, clean]
    have empty' : e.openTurn.pending = none := clean
    simp [Keeps, opens, empty, empty', Core.Slot.next, onDisplay]
  | ignored keeps => simp [Keeps, keeps]
  | closed keeps unfinished => simpa [keeps] using closed_keeps clean hobs.interrupted epoch
  | cleared keeps unfinished =>
    obtain ⟨shown, gone⟩ := dropPending_shown e .promptLeft clean
    have resumed : (e.dropPending .promptLeft).1.resumeTurn.pending = none := gone
    simpa [keeps] using
      keeps_of_shown epoch (dropPending_noIdle .promptLeft) (shown.trans resumed.symm)
  | gated key kind actions keeps unfinished emits =>
    have pends : (e.awaitGate key kind).pending = some key := rfl
    have shown : shownAfter e.pending actions = some key := by
      rcases emits with rfl | ⟨rfl, gate⟩
      · simp [hookPausePublish, Action.show, Publish.asks]
      · simp [pending, gate]
    have silent : ∀ a ∈ actions, a.isIdle = false := by
      rcases emits with rfl | ⟨rfl, -⟩ <;> simp [hookPausePublish, Action.isIdle]
    simpa [keeps] using keeps_of_shown epoch silent (shown.trans pends.symm)
  | straggled keeps unfinished =>
    have same : e.pending = e.resumeTurn.pending := rfl
    simp [Keeps, keeps, same]
  | worked keeps isOpen answered =>
    simp [Keeps, keeps, pending, setControl]

theorem onHook_keeps (one : OneOwner e) (hobs : HookObservation) (now : Time)
    (stays : hobs.opensTurn = true → e.hookPendingKey = none) :
    Keeps e ((machine cfg).step e (.hook hobs now)) := by
  obtain ⟨taken, gate, clean⟩ := takeOver_keeps cfg one now
  have body := hookEffect_keeps (hookBody_effect (takeOver cfg e now).1 hobs) clean e.turnEpoch
    (fun opens => gate.trans (stays opens))
  have whole := taken.append body
  rwa [← List.append_assoc, ← List.map_append] at whole

/-! ### Ticks and submits -/

theorem tick_keeps (one : OneOwner e) (obs : Observation) (ctx : ObservationCtx) (now : Time)
    (stays : reconciles cfg e obs ctx now = true → e.hookPendingKey = none) :
    Keeps e ((machine cfg).step e (.tick obs ctx now)) := by
  have effect := tick_effect cfg e obs ctx now
  have events : (machine cfg).step e (.tick obs ctx now) =
      ((tick cfg e obs ctx now).1, (tick cfg e obs ctx now).2.map (.emitted e.turnEpoch)) := by
    simp [machine, react, marks]
  have same_of_core : ∀ {e' : BeliefEngine}, e'.core = e.core → e'.pending = e.pending := by
    intro e' same
    simp only [pending, hookPendingKey_of_memory (hookMemory_of_core same),
      publishedKey_of_core same]
  rw [events]
  generalize tick cfg e obs ctx now = r at effect ⊢
  cases effect with
  | terminal e' same dead =>
    have kept : e'.pending = e.pending := same_of_core same
    have concluded : (e'.setControl .terminal .terminal).pending = e.pending := kept
    exact keeps_of_shown _ (by simp [Action.isIdle]) concluded.symm
  | held e' same active owned => exact keeps_of_shown _ (by simp) (same_of_core same).symm
  | reconciled e' same settled =>
    have active : e.hookMode = .active := by
      simp only [reconciles, Bool.and_eq_true, beq_iff_eq] at settled
      exact settled.1.1.1.2
    have empty : e.pending = none := by simp [pending, stays settled, one.hooks active]
    have empty' : e'.reconcileIdle.pending = none := (same_of_core same).trans empty
    constructor
    · simp [empty]
    · rw [held_emitted, empty, empty']
      simp [Action.show, idlePublish, Publish.asks]
  | watched e' actions active free unsettled mode memory published goesOn advisories =>
    refine keeps_of_shown _ (fun a member => Action.isIdle_advisory (advisories a member)) ?_
    rw [shownAfter_advisories advisories, pending, pending, hookPendingKey_of_memory memory,
      published]
  | screen r hookless fallback memory shown noIdle =>
    refine keeps_of_shown _ noIdle ?_
    rw [pending, pending, hookPendingKey_of_memory memory, one.screen hookless]
    simpa using shown

theorem submit_keeps (now : Time) : Keeps e ((machine cfg).step e (.submit now)) := by
  have events : (machine cfg).step e (.submit now) =
      (onSubmit cfg e now, e.pendingKeys.map .answered) := by simp [machine, react, marks]
  have empty : (onSubmit cfg e now).pending = none := rfl
  rw [events]
  constructor
  · apply Core.Slot.emptyAt_of_unmarked
    intro ev member
    obtain ⟨key, -, rfl⟩ := List.mem_map.mp member
    rfl
  · rw [empty]
    cases gate : e.hookPendingKey <;> cases published : e.publishedKey <;>
      simp [pending, pendingKeys, gate, published, Core.Slot.next, onDisplay]

/-! ### Runs -/

theorem oneOwner_fresh : OneOwner {} where
  hooks _ := rfl
  screen _ := rfl

theorem oneOwner_step (one : OneOwner e) (i : Input) : OneOwner ((machine cfg).step e i).1 := by
  rw [machine_state]
  cases i with
  | hook hobs now =>
    have mode := onHook_mode cfg e hobs now
    exact ⟨fun _ => onHook_publishedKey cfg e hobs now one.hooks, fun other => (other mode).elim⟩
  | submit now => exact ⟨fun _ => rfl, fun _ => rfl⟩
  | tick obs ctx now =>
    have effect := tick_effect cfg e obs ctx now
    simp only [react]
    generalize tick cfg e obs ctx now = r at effect
    have of_core : ∀ {e' : BeliefEngine}, e'.core = e.core → OneOwner e' := by
      intro e' same
      have mode := hookMode_of_core same
      have memory := hookMemory_of_core same
      exact
        { hooks := fun active => (publishedKey_of_core same).trans (one.hooks (mode ▸ active))
          screen := fun other =>
            (hookPendingKey_of_memory memory).trans (one.screen (mode ▸ other)) }
    cases effect with
    | terminal e' same dead => exact ⟨(of_core same).hooks, (of_core same).screen⟩
    | held e' same active owned => exact of_core same
    | reconciled e' same settled => exact ⟨(of_core same).hooks, (of_core same).screen⟩
    | watched e' actions active free unsettled mode memory published goesOn advisories =>
      exact ⟨fun _ => published.trans (one.hooks active), fun other => (other mode).elim⟩
    | screen r hookless fallback memory shown noIdle =>
      refine ⟨fun active => (fallback active).elim, fun _ => ?_⟩
      exact (hookPendingKey_of_memory memory).trans (one.screen hookless)
  | expectHooks now =>
    simp only [react, expectHooks]
    split
    · exact ⟨one.hooks, one.screen⟩
    · exact one

theorem step_keeps (one : OneOwner e) (i : Input) (keeps : forgets cfg e i = false) :
    Keeps e ((machine cfg).step e i) := by
  simp only [forgets, Bool.and_eq_false_iff] at keeps
  cases i with
  | hook hobs now =>
    refine onHook_keeps cfg one hobs now fun opens => ?_
    simpa [opens] using keeps
  | submit now => exact submit_keeps cfg now
  | tick obs ctx now =>
    refine tick_keeps cfg one obs ctx now fun settled => ?_
    simpa [settled] using keeps
  | expectHooks now =>
    have same : (e.expectHooks now).pending = e.pending := by
      simp only [expectHooks]
      split <;> rfl
    exact ⟨by simp [machine, react, marks], same.symm⟩

/-- A step that forgets comes to its mark with the gate still on display. -/
theorem forgets_breaks (one : OneOwner e) (i : Input) (lost : forgets cfg e i = true) :
    ¬ onDisplay.EmptyAt BeliefEvent.isMark e.pending ((machine cfg).step e i).2 := by
  simp only [forgets, Bool.and_eq_true] at lost
  obtain ⟨gate, why⟩ := lost
  obtain ⟨key, gate⟩ := Option.isSome_iff_exists.mp gate
  cases i with
  | hook hobs now =>
    obtain ⟨⟨-, shown⟩, same, clean⟩ := takeOver_keeps cfg one now
    have pends : (takeOver cfg e now).1.pending = some key := by simp [pending, same, gate]
    have events : ((machine cfg).step e (.hook hobs now)).2 =
        (takeOver cfg e now).2.map (.emitted e.turnEpoch) ++ [.opened (e.turnEpoch + 1)] := by
      simp only at why
      simp [machine, react, marks, onHook, andThen, hookBody, why]
    rw [events, Core.Slot.emptyAt_append, shown, pends]
    simp [BeliefEvent.isMark]
  | tick obs ctx now =>
    have pends : e.pending = some key := by simp [pending, gate]
    have effect := tick_effect cfg e obs ctx now
    have events : ((machine cfg).step e (.tick obs ctx now)).2 =
        (tick cfg e obs ctx now).2.map (.emitted e.turnEpoch) := by simp [machine, react, marks]
    rw [events, pends]
    generalize tick cfg e obs ctx now = r at effect
    simp only at why
    cases effect with
    | reconciled e' same settled =>
      simp [BeliefEvent.isMark, Action.isIdle, idlePublish]
    | terminal e' same dead => simp [reconciles, dead] at why
    | held e' same active owned => simp [reconciles, owned] at why
    | watched e' actions active free unsettled mode memory published goesOn advisories =>
      simp [unsettled] at why
    | screen r hookless fallback memory shown noIdle => simp [reconciles, hookless] at why
  | submit now => simp at why
  | expectHooks now => simp at why

theorem emptyAt_iff_along (one : OneOwner e) (inputs : List Input) :
    onDisplay.EmptyAt BeliefEvent.isMark e.pending ((machine cfg).outputs e inputs) ↔
      (machine cfg).Along (fun e i => forgets cfg e i = false) e inputs := by
  induction inputs generalizing e with
  | nil => simp
  | cons i rest ih =>
    rw [Core.Machine.outputs_cons, Core.Slot.emptyAt_append, Core.Machine.along_cons]
    cases lost : forgets cfg e i with
    | false =>
      obtain ⟨empty, shown⟩ := step_keeps cfg one i lost
      rw [shown, ih (oneOwner_step cfg one i)]
      simp [empty]
    | true =>
      have breaks := forgets_breaks cfg one i lost
      simp [breaks]

/-- Every respondable decision is closed before an idle publish or a new epoch, exactly in the
runs in which no such step comes while a gate is pending. -/
theorem released_iff_nothing_forgotten (inputs : List Input) :
    onDisplay.Released BeliefEvent.isMark ((machine cfg).outputs {} inputs) ↔
      (machine cfg).Along (fun e i => forgets cfg e i = false) {} inputs := by
  rw [Core.Slot.released_iff]
  exact emptyAt_iff_along cfg oneOwner_fresh inputs

/-- A `PermissionRequest`, then a `UserPromptSubmit`. -/
def gateThenPrompt : List Input :=
  [.hook
      { kind := .waitingForUser
        promptKind := some .permissionChoice
        rawEvent := "PermissionRequest"
        gateFp := some "a" }
      0,
    .hook { kind := .working, opensTurn := true, rawEvent := "UserPromptSubmit" } 1]

/-- The new epoch opens over the gate: its decision is never withdrawn. -/
theorem opened_over_gate :
    ¬ onDisplay.Released BeliefEvent.isMark ((machine {}).outputs {} gateThenPrompt) := by
  intro released
  obtain ⟨x, member, -⟩ := released [] _ [] _ [] (.hookGate "a") rfl rfl rfl
  simp at member

end BeliefEngine

end Nelix.Daemon
