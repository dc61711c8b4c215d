import Nelix.Daemon.BeliefEpochs
import Nelix.Daemon.BeliefGates

/-!
# The kind of a gate

Several hooks can carry one gate, and the most specific one decides how the gate is answered. The
engine keeps the kind in a slot that all gates share: a gate that comes up over another one, with
no answer in between, inherits the kind that stands there. That is the only way in which a gate is
published under a kind that is not its own.
-/
namespace Nelix.Daemon

namespace BeliefEngine

/-- A gate as it is published, with the kinds of the hooks that carried it since it became
pending. -/
structure GatePublish where
  key : DecisionKey
  kind : Option PromptKind
  hint : Option Hint
  own : List (Option PromptKind)
  deriving DecidableEq

/-- The publish of a gate among the actions of a call. -/
def gatePublish (own : List (Option PromptKind)) : Action → Option GatePublish
  | .publish p =>
    if p.asks then
      match p.decisionKey with
      | .hookGate fp => some ⟨.hookGate fp, p.payload.promptKind, p.payload.hint, own⟩
      | .hookPause epoch => some ⟨.hookPause epoch, p.payload.promptKind, p.payload.hint, own⟩
      | _ => none
    else none
  | _ => none

/-- The engine, and the kinds of the hooks that carried the pending gate since it came up. -/
structure GateBook where
  engine : BeliefEngine := {}
  own : List (Option PromptKind) := []

namespace GateBook

/-- A hook of the pending gate is added; a gate that comes up starts with its first hook. -/
def record (b : GateBook) (next : BeliefEngine) : Input → List (Option PromptKind)
  | .hook hobs _ =>
    if hobs.Pauses ∧ next.hookPendingKey = some (b.engine.pauseKey hobs) then
      if b.engine.hookPendingKey = next.hookPendingKey then b.own ++ [hobs.promptKind]
      else [hobs.promptKind]
    else if next.hookPendingKey = b.engine.hookPendingKey then b.own else []
  | _ => if next.hookPendingKey = b.engine.hookPendingKey then b.own else []

/-- The engine as a machine over the gates it publishes. -/
def machine (cfg : BeliefConfig) : Core.Machine GateBook Input GatePublish where
  step b i :=
    let r := react cfg b.engine i
    let own := b.record r.1 i
    (⟨r.1, own⟩, r.2.filterMap (gatePublish own))

end GateBook

/-- The kind that the hooks of one gate give it. -/
def ownKind (own : List (Option PromptKind)) : Option PromptKind :=
  own.foldl preferredPromptKind none

/-- The gate is published under the kind its own hooks give it, and its hint follows the kind. -/
structure OwnKind (p : GatePublish) : Prop where
  kind : p.kind = ownKind p.own
  modal : p.kind = some .modalChoice ↔ some .modalChoice ∈ p.own
  hint : p.hint = if p.kind = some .permissionChoice then some .needsPermission else none

/-- A gate comes up in an open turn, neither pending nor tombstoned, while another gate is pending
whose kind wins over the one this hook brings. -/
structure Overridden (e : BeliefEngine) (hobs : HookObservation) : Prop where
  pauses : hobs.Pauses
  unfinished : e.turnClosed = false
  fresh : e.pauseKey hobs ∉ e.hookAnsweredIds
  other : e.hookPendingKey ≠ none ∧ e.hookPendingKey ≠ some (e.pauseKey hobs)
  wins : e.hookPendingKind ≠ none ∧ e.hookPendingKind ≠ hobs.promptKind ∧
    hobs.promptKind ≠ some .modalChoice

/-- No gate is overridden in the call. -/
def KeepsKinds (e : BeliefEngine) : Input → Prop
  | .hook hobs _ => ¬ Overridden e hobs
  | _ => True

/-! ### Kinds -/

theorem preferred_eq_right_iff (a b : Option PromptKind) :
    preferredPromptKind a b = b ↔ ¬ (a ≠ none ∧ a ≠ b ∧ b ≠ some .modalChoice) := by
  unfold preferredPromptKind
  by_cases modal : b = some .modalChoice
  · simp [modal]
  · by_cases old : a = some .modalChoice
    · simp [old, modal, Ne.symm modal, eq_comm]
    · by_cases unset : a = none <;> simp [old, modal, unset]

theorem ownKind_append (own : List (Option PromptKind)) (kind : Option PromptKind) :
    ownKind (own ++ [kind]) = preferredPromptKind (ownKind own) kind := by
  simp [ownKind]

theorem ownKind_singleton (kind : Option PromptKind) : ownKind [kind] = kind := by
  exact (preferred_eq_right_iff none kind).mpr fun wins => wins.1 rfl

theorem ownKind_modal_iff (own : List (Option PromptKind)) :
    ownKind own = some .modalChoice ↔ some .modalChoice ∈ own := by
  induction own using List.reverseRecOn with
  | nil => simp [ownKind]
  | append_singleton own kind ih =>
    rw [ownKind_append, List.mem_append, List.mem_singleton, ← ih]
    unfold preferredPromptKind
    by_cases old : ownKind own = some .modalChoice
    · simp [old]
    · by_cases new : kind = some .modalChoice
      · simp [new]
      · by_cases unset : ownKind own = none <;> simp [old, new, unset, Ne.symm new]

/-! ### Calls that publish no gate -/

section Silent

variable (cfg : BeliefConfig) {e : BeliefEngine} (own : List (Option PromptKind))

theorem gatePublish_silent {actions : List Action} (silent : ∀ a ∈ actions, a.isPublish = false) :
    actions.filterMap (gatePublish own) = [] := by
  rw [List.filterMap_eq_nil_iff]
  intro a member
  have quiet := silent a member
  cases a with
  | publish p => simp [Action.isPublish] at quiet
  | withdraw key reason => rfl
  | finalize => rfl

theorem gatePublish_advisory {a : Action} (advisory : a.isAdvisory = true) :
    gatePublish own a = none := by
  obtain ⟨p, rfl, kind, -⟩ := a.isAdvisory_iff.mp advisory
  simp [gatePublish, Publish.asks, kind]

theorem gatePublish_idle (epoch : Nat) (interrupted : Bool) (reconciled : Option Bool) :
    gatePublish own (idlePublish epoch interrupted reconciled) = none := by
  simp [gatePublish, idlePublish, Publish.asks]

/-- A tick publishes no gate: what it puts up is named by the screen. -/
theorem tick_publishesNoGate (obs : Observation) (ctx : ObservationCtx) (now : Time) :
    (tick cfg e obs ctx now).2.filterMap (gatePublish own) = [] := by
  by_cases active : e.hookMode = .active
  · have effect := tick_effect cfg e obs ctx now
    generalize tick cfg e obs ctx now = r at effect ⊢
    cases effect with
    | terminal e' same dead => rfl
    | held e' same active owned => rfl
    | reconciled e' same settled => simp [gatePublish_idle]
    | watched e' actions active free unsettled mode memory published goesOn advisories =>
      rw [List.filterMap_eq_nil_iff]
      exact fun a member => gatePublish_advisory own (advisories a member)
    | screen r hookless fallback memory shown noIdle => exact absurd active hookless
  · obtain ⟨e₁, down, up, taken, offered, split⟩ := tick_display cfg e obs now active ctx
    have first : down.filterMap (gatePublish own) = [] := by cases taken <;> rfl
    have second : up.filterMap (gatePublish own) = [] := by
      generalize (tick cfg e obs ctx now).1 = e' at offered
      cases offered with
      | quiet e' actions same plain =>
        rw [List.filterMap_eq_nil_iff]
        intro a member
        rcases plain a member with advisory | rfl
        · exact gatePublish_advisory own advisory
        · rfl
      | shown e' p free asks named cooled same => simp [gatePublish, asks, named]
    rw [split, List.filterMap_append, first, second, List.append_nil]

/-- A hook that does not pause publishes no gate. -/
theorem hookBody_publishesNoGate {hobs : HookObservation} (other : ¬ hobs.Pauses) :
    (e.hookBody hobs).2.filterMap (gatePublish own) = [] := by
  unfold hookBody
  split
  · rfl
  · next opens =>
    split
    · unfold closeTurn
      split
      · rfl
      · simp [gatePublish_silent own (dropPending_noPublish (e := e.endEpoch) .superseded),
          gatePublish_idle]
    · next closes =>
      split
      · unfold clearPending
        split
        · rfl
        · exact gatePublish_silent own (dropPending_noPublish .promptLeft)
      · next clears =>
        split
        · next waits => exact absurd ⟨waits, by simpa using opens, by simpa using closes,
            by simpa using clears⟩ other
        · rfl

end Silent

/-! ### What one call publishes -/

section Books

variable (cfg : BeliefConfig) {b : GateBook}

/-- While the epoch is open the slot holds the kind of the pending gate, or nothing. -/
def GateBook.Sound (b : GateBook) : Prop :=
  b.engine.turnClosed = false →
    (b.engine.hookPendingKey = none → b.engine.hookPendingKind = none) ∧
      (b.engine.hookPendingKey ≠ none → b.engine.hookPendingKind = ownKind b.own)

theorem ownKind_iff {p : GatePublish}
    (hint : p.hint = if p.kind = some .permissionChoice then some .needsPermission else none) :
    OwnKind p ↔ p.kind = ownKind p.own :=
  ⟨OwnKind.kind, fun kind => ⟨kind, by rw [kind, ownKind_modal_iff], hint⟩⟩

/-- Whatever leaves the gates alone keeps the books. -/
theorem sound_of_memory {next : BeliefEngine} {i : Input} (sound : b.Sound)
    (memory : next.hookMemory = b.engine.hookMemory)
    (plain : ∀ hobs now, i ≠ .hook hobs now) : GateBook.Sound ⟨next, b.record next i⟩ := by
  intro unfinished
  have pending := hookPendingKey_of_memory memory
  have kind := hookPendingKind_of_memory memory
  have own : b.record next i = b.own := by
    cases i with
    | hook hobs now => exact absurd rfl (plain hobs now)
    | submit now => simp [GateBook.record, pending]
    | tick obs ctx now => simp [GateBook.record, pending]
    | expectHooks now => simp [GateBook.record, pending]
  have books := sound ((turnClosed_of_memory memory).symm.trans unfinished)
  simpa only [own, pending, kind] using books

theorem gatePublish_hookPause (own : List (Option PromptKind)) (hobs : HookObservation)
    (kind : Option PromptKind) (e : BeliefEngine) :
    gatePublish own (hookPausePublish (e.pauseKey hobs) kind) =
      some ⟨e.pauseKey hobs, kind,
        if kind = some .permissionChoice then some .needsPermission else none, own⟩ := by
  have isGate : (∃ fp, e.pauseKey hobs = .hookGate fp) ∨
      ∃ epoch, e.pauseKey hobs = .hookPause epoch := by
    unfold pauseKey
    split
    · split
      · exact .inr ⟨_, rfl⟩
      · exact .inl ⟨_, rfl⟩
    · exact .inr ⟨_, rfl⟩
  rcases isGate with ⟨fp, key⟩ | ⟨epoch, key⟩ <;>
    simp [gatePublish, hookPausePublish, Publish.asks, key]

/-- The hook of a gate, in a sound book: it publishes the gate under its own kind exactly when it
overrides no other, and then the book is sound again. -/
theorem pauses_step {hobs : HookObservation} (now : Time) (sound : b.Sound)
    (pauses : hobs.Pauses) :
    ((∀ p ∈ ((GateBook.machine cfg).step b (.hook hobs now)).2, OwnKind p) ↔
        ¬ Overridden b.engine hobs) ∧
      (¬ Overridden b.engine hobs →
        ((GateBook.machine cfg).step b (.hook hobs now)).1.Sound) := by
  obtain ⟨e, own⟩ := b
  have silent : ∀ own', (takeOver cfg e now).2.filterMap (gatePublish own') = [] :=
    fun own' => gatePublish_silent own' (takeOver_noPublish cfg e now)
  have stepped : (GateBook.machine cfg).step ⟨e, own⟩ (.hook hobs now) =
      (⟨(onHook cfg e hobs now).1,
        GateBook.record ⟨e, own⟩ (onHook cfg e hobs now).1 (.hook hobs now)⟩,
        (onHook cfg e hobs now).2.filterMap (gatePublish
          (GateBook.record ⟨e, own⟩ (onHook cfg e hobs now).1 (.hook hobs now)))) := rfl
  have memory := takeOver_memory cfg e now
  cases closed : e.turnClosed with
  | true =>
    have still := (turnClosed_of_memory memory).trans closed
    rw [stepped, onHook_ignored cfg now pauses closed]
    refine ⟨⟨fun _ gate => ?_, fun _ => by simp [silent]⟩, fun _ unfinished => ?_⟩
    · have unfinished := gate.unfinished
      simp [closed] at unfinished
    · simp [still] at unfinished
  | false =>
    obtain ⟨idle, busy⟩ := sound closed
    by_cases free : e.hookPendingKey = some (e.pauseKey hobs) ∨
        e.pauseKey hobs ∉ e.hookAnsweredIds
    · rw [stepped, onHook_pending cfg now pauses closed rfl free]
      generalize kinded : preferredPromptKind e.hookPendingKind hobs.promptKind = kind
      by_cases pending : e.hookPendingKey = some (e.pauseKey hobs)
      · -- the pending gate again: its own kinds grow by one
        have recorded : GateBook.record ⟨e, own⟩
            ((takeOver cfg e now).1.awaitGate (e.pauseKey hobs) kind) (.hook hobs now) =
            own ++ [hobs.promptKind] := by
          simp [GateBook.record, pauses, pending, awaitGate, setControl]
        have merged : kind = ownKind (own ++ [hobs.promptKind]) := by
          rw [ownKind_append, ← kinded, busy (by simp [pending])]
        have calm : ¬ Overridden e hobs := fun gate => gate.other.2 pending
        refine ⟨⟨fun _ => calm, fun _ p member => ?_⟩, fun _ _ => ⟨by rintro ⟨⟩, fun _ => ?_⟩⟩
        · rw [recorded, List.filterMap_append, silent, List.nil_append] at member
          split at member
          · simp at member
          · simp only [List.filterMap_cons, gatePublish_hookPause, List.filterMap_nil,
              List.mem_singleton] at member
            subst member
            exact (ownKind_iff rfl).mpr merged
        · rw [recorded]
          exact merged
      · have recorded : GateBook.record ⟨e, own⟩
            ((takeOver cfg e now).1.awaitGate (e.pauseKey hobs) kind) (.hook hobs now) =
            [hobs.promptKind] := by
          simp [GateBook.record, pauses, pending, awaitGate, setControl]
        have fresh := free.resolve_left pending
        have calm : kind = ownKind [hobs.promptKind] ↔ ¬ Overridden e hobs := by
          rw [ownKind_singleton, ← kinded, preferred_eq_right_iff, not_iff_not]
          constructor
          · intro wins
            have other : e.hookPendingKey ≠ none := fun none => wins.1 (idle none)
            exact ⟨pauses, closed, fresh, ⟨other, pending⟩, wins⟩
          · exact fun gate => gate.wins
        refine ⟨?_, fun kept _ => ⟨by rintro ⟨⟩, fun _ => ?_⟩⟩
        · rw [recorded, List.filterMap_append, silent, List.nil_append, if_neg (by simp [pending])]
          simp only [List.filterMap_cons, gatePublish_hookPause, List.filterMap_nil,
            List.forall_mem_singleton]
          exact (ownKind_iff rfl).trans calm
        · rw [recorded]
          exact calm.mpr kept
    · obtain ⟨other, answered⟩ := not_or.mp free
      have answered := not_not.mp answered
      rw [stepped, onHook_swallowed cfg now pauses closed rfl other answered]
      have taken := hookPendingKey_of_memory memory
      have takenKind := hookPendingKind_of_memory memory
      have pending : (takeOver cfg e now).1.resumeTurn.hookPendingKey = e.hookPendingKey := taken
      have kind : (takeOver cfg e now).1.resumeTurn.hookPendingKind = e.hookPendingKind :=
        takenKind
      have recorded : GateBook.record ⟨e, own⟩ (takeOver cfg e now).1.resumeTurn
          (.hook hobs now) = own := by
        simp [GateBook.record, pending, other]
      refine ⟨⟨fun _ gate => gate.fresh answered, fun _ => by simp [silent]⟩, fun _ _ => ?_⟩
      simp only [pending, kind, recorded]
      exact ⟨idle, busy⟩

/-- A hook that does not pause drops the pending gate with its kind, or leaves both. -/
theorem hookBody_other {e : BeliefEngine} {hobs : HookObservation} (other : ¬ hobs.Pauses)
    (unfinished : (e.hookBody hobs).1.turnClosed = false) :
    ((e.hookBody hobs).1.hookPendingKey = none ∧ (e.hookBody hobs).1.hookPendingKind = none) ∨
      ((e.hookBody hobs).1.hookPendingKey = e.hookPendingKey ∧
        (e.hookBody hobs).1.hookPendingKind = e.hookPendingKind ∧ e.turnClosed = false) := by
  cases opens : hobs.opensTurn with
  | true => exact .inl (by simp [hookBody, opens, openTurn, setControl])
  | false =>
    cases closes : hobs.closesTurn with
    | true =>
      have closed := closeTurn_closed (e := e) hobs
      simp [hookBody, opens, closes, closed] at unfinished
    | false =>
      cases clears : hobs.clearsPending with
      | true =>
        have body : e.hookBody hobs = e.clearPending := by simp [hookBody, opens, closes, clears]
        rw [body] at unfinished ⊢
        unfold clearPending at unfinished ⊢
        split
        · next closed => simp [closed] at unfinished
        · next running =>
          have running : e.turnClosed = false := by simpa using running
          cases pending : e.hookPendingKey with
          | none => exact .inr (by simp [dropPending, pending, resumeTurn, setControl, running])
          | some key => exact .inl (by simp [dropPending, pending, resumeTurn, setControl])
      | false =>
        by_cases waits : hobs.kind = .waitingForUser
        · exact absurd ⟨waits, opens, closes, clears⟩ other
        · have body : e.hookBody hobs = (e.workingHook hobs, []) := by
            simp [hookBody, opens, closes, clears, waits]
          rw [body] at unfinished ⊢
          unfold workingHook at unfinished ⊢
          split
          · next isOpen =>
            rw [if_pos isOpen] at unfinished
            exact .inr ⟨rfl, rfl, unfinished⟩
          · next isOpen =>
            rw [if_neg isOpen] at unfinished
            exact .inr ⟨rfl, rfl, unfinished⟩

theorem other_sound {hobs : HookObservation} (now : Time) (sound : b.Sound)
    (other : ¬ hobs.Pauses) : ((GateBook.machine cfg).step b (.hook hobs now)).1.Sound := by
  have memory := takeOver_memory cfg b.engine now
  have pending := hookPendingKey_of_memory memory
  have kind := hookPendingKind_of_memory memory
  intro unfinished
  rcases hookBody_other other unfinished with ⟨gone, clear⟩ | ⟨same, sameKind, running⟩
  · exact ⟨fun _ => clear, fun stands => absurd gone stands⟩
  · have unmoved : (onHook cfg b.engine hobs now).1.hookPendingKey = b.engine.hookPendingKey :=
      same.trans pending
    have recorded : b.record (onHook cfg b.engine hobs now).1 (.hook hobs now) = b.own := by
      simp [GateBook.record, other, unmoved]
    have books := sound ((turnClosed_of_memory memory).symm.trans running)
    have unmovedKind : (onHook cfg b.engine hobs now).1.hookPendingKind =
        b.engine.hookPendingKind := sameKind.trans kind
    have stepped : ((GateBook.machine cfg).step b (.hook hobs now)).1 =
        ⟨(onHook cfg b.engine hobs now).1,
          b.record (onHook cfg b.engine hobs now).1 (.hook hobs now)⟩ := rfl
    rw [stepped]
    simpa only [recorded, unmoved, unmovedKind] using books

theorem GateBook.machine_state (i : Input) :
    ((GateBook.machine cfg).step b i).1 =
      ⟨(react cfg b.engine i).1, b.record (react cfg b.engine i).1 i⟩ := rfl

theorem sound_step (i : Input) (sound : b.Sound) (keeps : KeepsKinds b.engine i) :
    ((GateBook.machine cfg).step b i).1.Sound := by
  cases i with
  | hook hobs now =>
    by_cases pauses : hobs.Pauses
    · exact (pauses_step cfg now sound pauses).2 keeps
    · exact other_sound cfg now sound pauses
  | submit now => exact fun _ => ⟨fun _ => rfl, fun stands => absurd rfl stands⟩
  | tick obs ctx now =>
    rcases tick_memory cfg (e := b.engine) obs ctx now with memory | closed
    · have plain : ∀ hobs t, Input.tick obs ctx now ≠ .hook hobs t := fun _ _ => Input.noConfusion
      simp only [GateBook.machine_state, react]
      exact sound_of_memory sound memory plain
    · intro unfinished
      have running : (tick cfg b.engine obs ctx now).1.turnClosed = false := unfinished
      simp [closed] at running
  | expectHooks now =>
    have plain : ∀ hobs t, Input.expectHooks now ≠ .hook hobs t := fun _ _ => Input.noConfusion
    simp only [GateBook.machine_state, react]
    exact sound_of_memory sound (expectHooks_memory now) plain

/-- In a sound book a call publishes gates under their own kinds exactly when it overrides none. -/
theorem ownKind_step (i : Input) (sound : b.Sound) :
    (∀ p ∈ ((GateBook.machine cfg).step b i).2, OwnKind p) ↔ KeepsKinds b.engine i := by
  cases i with
  | hook hobs now =>
    by_cases pauses : hobs.Pauses
    · exact (pauses_step cfg now sound pauses).1
    · have none : ((GateBook.machine cfg).step b (.hook hobs now)).2 = [] := by
        simp only [GateBook.machine, react, onHook, andThen, List.filterMap_append,
          gatePublish_silent _ (takeOver_noPublish cfg b.engine now),
          hookBody_publishesNoGate _ pauses, List.append_nil]
      rw [none]
      exact ⟨fun _ gate => pauses gate.pauses, fun _ => by simp⟩
  | submit now => simp [GateBook.machine, react, KeepsKinds]
  | tick obs ctx now =>
    simp [GateBook.machine, react, KeepsKinds, tick_publishesNoGate]
  | expectHooks now => simp [GateBook.machine, react, KeepsKinds]

/-- Every gate of a run is published under the kind of its own hooks exactly when none comes up
over a pending gate whose kind wins over its own. -/
theorem ownKinds_iff (inputs : List Input) :
    (∀ p ∈ (GateBook.machine cfg).outputs {} inputs, OwnKind p) ↔
      (GateBook.machine cfg).Along (fun b i => KeepsKinds b.engine i) {} inputs := by
  have fresh : GateBook.Sound {} := fun _ => ⟨fun _ => rfl, fun stands => absurd rfl stands⟩
  exact (GateBook.machine cfg).outputs_iff_along GateBook.Sound OwnKind
    (fun _ i sound keeps => sound_step cfg i sound keeps)
    (fun _ i sound => ownKind_step cfg i sound) fresh inputs

/-- A permission gate comes up over a pending question modal. -/
def permissionOverModal : List Input :=
  [.hook { kind := .waitingForUser, promptKind := some .modalChoice, gateFp := some "a" } 0,
    .hook { kind := .waitingForUser, promptKind := some .permissionChoice, gateFp := some "b" } 1]

/-- The permission gate is published as a modal choice, without its permission hint. -/
theorem modal_leaks :
    ¬ ∀ p ∈ (GateBook.machine {}).outputs {} permissionOverModal, OwnKind p := by
  intro own
  have leaked : (⟨.hookGate "b", some .modalChoice, none, [some .permissionChoice]⟩ :
      GatePublish) ∈ (GateBook.machine {}).outputs {} permissionOverModal := by
    decide +kernel
  have modal := (own _ leaked).modal.mp rfl
  simp at modal

end Books

end BeliefEngine

end Nelix.Daemon
