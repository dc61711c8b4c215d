import Nelix.Daemon.BeliefRuns

/-!
# One idle for each epoch

An epoch publishes its idle at most once, and from then on no hook and no tick publishes anything
until a `UserPromptSubmit` opens the next epoch.
-/
namespace Nelix.Daemon

namespace BeliefEngine

variable (cfg : BeliefConfig) {e : BeliefEngine}

/-! ### What one call does to an epoch -/

theorem takeOver_noIdle (now : Time) : ∀ a ∈ (takeOver cfg e now).2, a.isIdle = false := by
  intro a member
  have silent := takeOver_noPublish cfg e now a member
  cases a with
  | publish p => simp [Action.isPublish] at silent
  | withdraw key reason => rfl
  | finalize => rfl

theorem dropPending_noPublish (reason : WithdrawReason) :
    ∀ a ∈ (e.dropPending reason).2, a.isPublish = false := by
  intro a member
  cases pending : e.hookPendingKey with
  | none => simp [dropPending, pending] at member
  | some key =>
    simp only [dropPending, pending, List.mem_singleton] at member
    subst member
    rfl

theorem isIdle_of_noPublish {a : Action} (silent : a.isPublish = false) : a.isIdle = false := by
  cases a with
  | publish p => simp [Action.isPublish] at silent
  | withdraw key reason => rfl
  | finalize => rfl

/-- What a call can do to an epoch: nothing, open the next one, or close it with its idle as the
last action. -/
inductive EpochEffect (e : BeliefEngine) (i : Input) : BeliefEngine × List Action → Prop
  | kept (r : BeliefEngine × List Action) (epoch : r.1.turnEpoch = e.turnEpoch)
      (idleEpoch : r.1.idlePublishedEpoch = e.idlePublishedEpoch)
      (silent : ∀ a ∈ r.2, a.isIdle = false) : EpochEffect e i r
  | opened (r : BeliefEngine × List Action) (opens : i.opensTurn = true)
      (epoch : r.1.turnEpoch = e.turnEpoch + 1)
      (silent : ∀ a ∈ r.2, a.isIdle = false) : EpochEffect e i r
  | closed (e' : BeliefEngine) (before : List Action) (interrupted : Bool)
      (reconciled : Option Bool) (running : e.turnClosed = false)
      (epoch : e'.turnEpoch = e.turnEpoch) (idleEpoch : e'.idlePublishedEpoch = some e.turnEpoch)
      (silent : ∀ a ∈ before, a.isIdle = false) :
      EpochEffect e i (e', before ++ [idlePublish e.turnEpoch interrupted reconciled])

theorem onHook_epoch (hobs : HookObservation) (now : Time) :
    EpochEffect e (.hook hobs now) (onHook cfg e hobs now) := by
  have memory := takeOver_memory cfg e now
  have epoch := turnEpoch_of_memory memory
  have idleEpoch := idlePublishedEpoch_of_memory memory
  have taken : ∀ a ∈ (takeOver cfg e now).2, a.isIdle = false := takeOver_noIdle cfg now
  have effect := hookBody_effect (takeOver cfg e now).1 hobs
  have silent : ∀ actions : List Action, (∀ a ∈ actions, a.isIdle = false) →
      ∀ a ∈ (takeOver cfg e now).2 ++ actions, a.isIdle = false := by
    intro actions quiet a member
    rcases List.mem_append.mp member with old | new
    · exact taken a old
    · exact quiet a new
  simp only [onHook, andThen]
  generalize (takeOver cfg e now).1 = e₁ at effect memory epoch idleEpoch
  generalize e₁.hookBody hobs = r at effect
  cases effect with
  | opened opens =>
    exact .opened _ opens (congrArg (· + 1) epoch) (silent [] (by simp))
  | ignored keeps => exact .kept _ epoch idleEpoch (silent [] (by simp))
  | closed keeps unfinished =>
    obtain ⟨sameEpoch, -, spent, -, -⟩ := dropPending_frame e₁.endEpoch .superseded
    rw [← List.append_assoc, epoch]
    refine .closed _ _ _ _ (turnClosed_of_memory memory ▸ unfinished) (sameEpoch.trans epoch)
      (spent.trans (congrArg some epoch)) (silent _ ?_)
    exact fun a member => isIdle_of_noPublish (dropPending_noPublish _ a member)
  | cleared keeps unfinished =>
    obtain ⟨sameEpoch, -, same, -, -⟩ := dropPending_frame e₁ .promptLeft
    refine .kept _ (sameEpoch.trans epoch) (same.trans idleEpoch) (silent _ ?_)
    exact fun a member => isIdle_of_noPublish (dropPending_noPublish _ a member)
  | gated key kind actions keeps unfinished emits =>
    refine .kept _ epoch idleEpoch (silent _ ?_)
    rcases emits with rfl | ⟨rfl, -⟩
    · simp [hookPausePublish, Action.isIdle]
    · simp
  | straggled keeps unfinished => exact .kept _ epoch idleEpoch (silent [] (by simp))
  | worked keeps isOpen answered => exact .kept _ epoch idleEpoch (silent [] (by simp))

theorem tick_epoch (ok : EpochsOk e) (obs : Observation) (ctx : ObservationCtx) (now : Time) :
    EpochEffect e (.tick obs ctx now) (tick cfg e obs ctx now) := by
  have effect := tick_effect cfg e obs ctx now
  generalize tick cfg e obs ctx now = r at effect ⊢
  cases effect with
  | terminal e' same dead =>
    have memory := hookMemory_of_core same
    exact .kept _ (turnEpoch_of_memory memory) (idlePublishedEpoch_of_memory memory)
      (by simp [Action.isIdle])
  | held e' same active owned =>
    have memory := hookMemory_of_core same
    exact .kept _ (turnEpoch_of_memory memory) (idlePublishedEpoch_of_memory memory) (by simp)
  | reconciled e' same settled =>
    have epoch := turnEpoch_of_memory (hookMemory_of_core same)
    have free : e.runsOn = true := by
      simp only [reconciles, Bool.and_eq_true] at settled
      exact settled.1.1.2
    exact .closed _ [] _ _ (ok.running_of_runsOn free) epoch (congrArg some epoch) (by simp)
  | watched e' actions active free unsettled mode memory published goesOn advisories =>
    exact .kept _ (turnEpoch_of_memory memory) (idlePublishedEpoch_of_memory memory)
      (fun a member => Action.isIdle_advisory (advisories a member))
  | screen r hookless fallback memory shown noIdle =>
    exact .kept _ (turnEpoch_of_memory memory) (idlePublishedEpoch_of_memory memory) noIdle

theorem react_epoch (ok : EpochsOk e) (i : Input) : EpochEffect e i (react cfg e i) := by
  cases i with
  | hook hobs now => exact onHook_epoch cfg hobs now
  | submit now => exact .kept _ rfl rfl (by simp [react])
  | tick obs ctx now => exact tick_epoch cfg ok obs ctx now
  | expectHooks now =>
    refine .kept _ ?_ ?_ (by simp [react])
    all_goals
      simp only [react, expectHooks]
      split <;> rfl

/-! ### At most one idle -/

/-- The epoch published its idle, or is past. -/
def Spent (n : Nat) (e : BeliefEngine) : Prop :=
  n < e.turnEpoch ∨ n = e.turnEpoch ∧ e.idlePublishedEpoch = some n

theorem spent_step (ok : EpochsOk e) (i : Input) {n : Nat} (spent : Spent n e) :
    Spent n ((machine cfg).step e i).1 := by
  have effect := react_epoch cfg ok i
  rw [machine_state]
  generalize react cfg e i = r at effect ⊢
  cases effect with
  | kept r epoch idleEpoch silent => simpa only [Spent, epoch, idleEpoch] using spent
  | opened r opens epoch silent =>
    left
    rcases spent with past | ⟨current, -⟩ <;> omega
  | closed e' before interrupted reconciled running epoch idleEpoch silent =>
    rcases spent with past | ⟨rfl, -⟩
    · exact .inl (epoch ▸ past)
    · exact .inr ⟨epoch.symm, idleEpoch⟩

theorem countP_emitted_silent {actions : List Action} (n epoch : Nat)
    (silent : ∀ a ∈ actions, a.isIdle = false) :
    (actions.map (BeliefEvent.emitted epoch)).countP (·.isIdleOf n) = 0 := by
  rw [List.countP_eq_zero]
  intro ev member
  obtain ⟨a, written, rfl⟩ := List.mem_map.mp member
  simp [BeliefEvent.isIdleOf, silent a written]

theorem countP_marks (n : Nat) (i : Input) : (marks e i).countP (·.isIdleOf n) = 0 := by
  rw [List.countP_eq_zero]
  intro ev member idle
  have silent := marks_noIdle e i ev member
  cases ev with
  | emitted epoch a =>
    simp only [BeliefEvent.isIdleOf, Bool.and_eq_true] at idle
    simp [BeliefEvent.isIdle, idle.2] at silent
  | answered key => simp [BeliefEvent.isIdleOf] at idle
  | opened epoch => simp [BeliefEvent.isIdleOf] at idle

/-- A call publishes the idle of `n` at most once, only while `n` is not spent, and spends it. -/
theorem idle_step (ok : EpochsOk e) (i : Input) (n : Nat) :
    ((machine cfg).step e i).2.countP (·.isIdleOf n) = 0 ∨
      ((machine cfg).step e i).2.countP (·.isIdleOf n) = 1 ∧ ¬ Spent n e ∧
        Spent n ((machine cfg).step e i).1 := by
  rw [machine_events, machine_state, List.countP_append, countP_marks, Nat.add_zero]
  have effect := react_epoch cfg ok i
  generalize react cfg e i = r at effect ⊢
  cases effect with
  | kept r epoch idleEpoch silent => exact .inl (countP_emitted_silent n _ silent)
  | opened r opens epoch silent => exact .inl (countP_emitted_silent n _ silent)
  | closed e' before interrupted reconciled running epoch idleEpoch silent =>
    rw [List.map_append, List.countP_append, countP_emitted_silent n _ silent, Nat.zero_add]
    by_cases current : e.turnEpoch = n
    · right
      refine ⟨by simp [BeliefEvent.isIdleOf, idlePublish, Action.isIdle, current], ?_, ?_⟩
      · rintro (past | ⟨-, closed⟩)
        · omega
        · rw [← current] at closed
          simp [(turnClosed_iff e).mpr closed] at running
      · exact .inr ⟨(epoch.trans current).symm, idleEpoch.trans (congrArg some current)⟩
    · left
      simp [BeliefEvent.isIdleOf, current]

theorem idle_count_spent (ok : EpochsOk e) {n : Nat} (spent : Spent n e) (inputs : List Input) :
    ((machine cfg).outputs e inputs).countP (·.isIdleOf n) = 0 := by
  induction inputs generalizing e with
  | nil => rfl
  | cons i rest ih =>
    have later := ih (step_epochs cfg ok i) (spent_step cfg ok i spent)
    rw [Core.Machine.outputs_cons, List.countP_append, later]
    rcases idle_step cfg ok i n with none | ⟨-, unspent, -⟩
    · exact none
    · exact absurd spent unspent

theorem idle_count (ok : EpochsOk e) (n : Nat) (inputs : List Input) :
    ((machine cfg).outputs e inputs).countP (·.isIdleOf n) ≤ 1 := by
  induction inputs generalizing e with
  | nil => simp
  | cons i rest ih =>
    rw [Core.Machine.outputs_cons, List.countP_append]
    rcases idle_step cfg ok i n with none | ⟨one, -, spent⟩
    · have later := ih (step_epochs cfg ok i)
      omega
    · have silent := idle_count_spent cfg (step_epochs cfg ok i) spent rest
      omega

/-- An idle publish names its epoch, and closes it. -/
theorem idle_closes (ok : EpochsOk e) (i : Input) {epoch : Nat} {p : Publish}
    (emitted : BeliefEvent.emitted epoch (.publish p) ∈ ((machine cfg).step e i).2)
    (idle : p.kind = .idle) :
    epoch = e.turnEpoch ∧ p.decisionKey = .idle epoch ∧
      ((machine cfg).step e i).1.turnClosed = true := by
  rw [machine_events] at emitted
  rw [machine_state]
  rcases List.mem_append.mp emitted with written | mark
  · obtain ⟨a, member, same⟩ := List.mem_map.mp written
    obtain ⟨rfl, rfl⟩ := BeliefEvent.emitted.inj same
    have effect := react_epoch cfg ok i
    generalize react cfg e i = r at effect member ⊢
    have isIdle : (Action.publish p).isIdle = true := by simp [Action.isIdle, idle]
    cases effect with
    | kept r epoch idleEpoch silent => simp [silent _ member] at isIdle
    | opened r opens epoch silent => simp [silent _ member] at isIdle
    | closed e' before interrupted reconciled running epoch idleEpoch silent =>
      have closed : e'.turnClosed = true :=
        (turnClosed_iff e').mpr (idleEpoch.trans (congrArg some epoch.symm))
      rcases List.mem_append.mp member with earlier | last
      · simp [silent _ earlier] at isIdle
      · simp only [idlePublish, List.mem_singleton, Action.publish.injEq] at last
        exact ⟨rfl, by rw [last], closed⟩
  · have silent := marks_noPublish e i _ mark
    simp [BeliefEvent.isPublish, Action.isPublish] at silent

/-! ### A closed epoch is silent -/

/-- Without a `UserPromptSubmit`, a call keeps a closed epoch closed and the control state where
it was or moves it to terminal, and publishes nothing. -/
theorem closed_step (ok : EpochsOk e) (closed : e.turnClosed = true) (i : Input)
    (noOpen : i.opensTurn = false) :
    ((machine cfg).step e i).1.turnClosed = true ∧
      (((machine cfg).step e i).1.state.controlState = e.state.controlState ∨
        ((machine cfg).step e i).1.state.controlState = .terminal) ∧
      ∀ ev ∈ ((machine cfg).step e i).2, ev.isPublish = false := by
  have lift := @no_event BeliefEvent.isPublish Action.isPublish cfg e i (fun _ _ silent => silent)
    (marks_noPublish e i)
  rw [machine_state]
  cases i with
  | hook hobs now =>
    have mode := ok.active closed
    have taken : takeOver cfg e now = (e.hookSeen now, []) := takeOver_active cfg e now mode
    have effect := hookBody_effect (e.hookSeen now) hobs
    have same : react cfg e (.hook hobs now) = (e.hookSeen now).hookBody hobs := by
      simp only [react, onHook, andThen, taken, List.nil_append]
    have closed' : (e.hookSeen now).turnClosed = true := closed
    rw [same] at lift ⊢
    generalize (e.hookSeen now).hookBody hobs = r at effect lift ⊢
    cases effect with
    | opened opens =>
      simp only [Input.opensTurn] at noOpen
      simp [opens] at noOpen
    | ignored keeps => exact ⟨closed, .inl rfl, lift (by simp)⟩
    | closed keeps unfinished => simp [closed'] at unfinished
    | cleared keeps unfinished => simp [closed'] at unfinished
    | gated key kind actions keeps unfinished emits => simp [closed'] at unfinished
    | straggled keeps unfinished => simp [closed'] at unfinished
    | worked keeps isOpen answered =>
      have shut : (e.hookSeen now).turnOpen = false := ok.shut closed
      simp [shut] at isOpen
  | submit now => exact ⟨closed, .inl rfl, lift (by simp [react])⟩
  | tick obs ctx now =>
    have effect := tick_effect cfg e obs ctx now
    have same : react cfg e (.tick obs ctx now) = tick cfg e obs ctx now := rfl
    have running : e.runsOn = true → False := fun free => by
      simp [ok.running_of_runsOn free] at closed
    rw [same] at lift ⊢
    generalize tick cfg e obs ctx now = r at effect lift ⊢
    cases effect with
    | terminal e' same dead =>
      exact ⟨(turnClosed_of_memory (hookMemory_of_core same)).trans closed, .inr rfl,
        lift (by simp [Action.isPublish])⟩
    | held e' same active owned =>
      exact ⟨(turnClosed_of_memory (hookMemory_of_core same)).trans closed,
        .inl (controlState_of_core same), lift (by simp)⟩
    | reconciled e' same settled =>
      simp only [reconciles, Bool.and_eq_true] at settled
      exact (running settled.1.1.2).elim
    | watched e' actions active free unsettled mode memory published goesOn advisories =>
      exact (running free).elim
    | screen r hookless fallback memory shown noIdle =>
      exact (hookless (ok.active closed)).elim
  | expectHooks now =>
    have same : react cfg e (.expectHooks now) = (e, []) := by
      simp [react, expectHooks, ok.active closed]
    rw [same] at lift ⊢
    exact ⟨closed, .inl rfl, lift (by simp)⟩

/-- What `closed_step` says of a call, of a whole run. -/
theorem closed_run (ok : EpochsOk e) (closed : e.turnClosed = true) (inputs : List Input)
    (noOpen : ∀ i ∈ inputs, i.opensTurn = false) :
    (((machine cfg).after e inputs).state.controlState = e.state.controlState ∨
        ((machine cfg).after e inputs).state.controlState = .terminal) ∧
      ∀ ev ∈ (machine cfg).outputs e inputs, ev.isPublish = false := by
  induction inputs generalizing e with
  | nil => exact ⟨.inl rfl, by simp⟩
  | cons i rest ih =>
    obtain ⟨stays, control, silent⟩ := closed_step cfg ok closed i (noOpen i (by simp))
    obtain ⟨later, quiet⟩ :=
      ih (step_epochs cfg ok i) stays (fun j member => noOpen j (by simp [member]))
    constructor
    · rw [Core.Machine.after_cons]
      rcases later with same | terminal
      · rcases control with kept | concluded
        · exact .inl (same.trans kept)
        · exact .inr (same.trans concluded)
      · exact .inr terminal
    · intro ev member
      rw [Core.Machine.outputs_cons] at member
      rcases List.mem_append.mp member with here | after
      · exact silent ev here
      · exact quiet ev after

/-! ### Hook mode is for good -/

theorem active_step (active : e.hookMode = .active) (i : Input) :
    ((machine cfg).step e i).1.hookMode = .active := by
  rw [machine_state]
  cases i with
  | hook hobs now => exact onHook_mode cfg e hobs now
  | submit now => exact active
  | tick obs ctx now =>
    have effect := tick_effect cfg e obs ctx now
    simp only [react]
    generalize tick cfg e obs ctx now = r at effect
    cases effect with
    | terminal e' same dead => exact (hookMode_of_core same).trans active
    | held e' same _ owned => exact (hookMode_of_core same).trans active
    | reconciled e' same settled => exact (hookMode_of_core same).trans active
    | watched e' actions _ free unsettled mode memory published goesOn advisories => exact mode
    | screen r hookless fallback memory shown noIdle => exact (hookless active).elim
  | expectHooks now => simp [react, expectHooks, active]

/-- In hook mode the screen asks the user nothing. -/
theorem active_tick (active : e.hookMode = .active) (obs : Observation) (ctx : ObservationCtx)
    (now : Time) : ∀ a ∈ (tick cfg e obs ctx now).2, a.isWaiting = false := by
  have effect := tick_effect cfg e obs ctx now
  generalize tick cfg e obs ctx now = r at effect
  cases effect with
  | terminal e' same dead => simp [Action.isWaiting]
  | held e' same _ owned => simp
  | reconciled e' same settled => simp [idlePublish, Action.isWaiting]
  | watched e' actions _ free unsettled mode memory published goesOn advisories =>
    exact fun a member => Action.isWaiting_advisory (advisories a member)
  | screen r hookless fallback memory shown noIdle => exact (hookless active).elim

theorem active_after (active : e.hookMode = .active) (inputs : List Input) :
    ((machine cfg).after e inputs).hookMode = .active :=
  (machine cfg).invariant_after (fun e => e.hookMode = .active)
    (fun _ i active => active_step cfg active i) active inputs

/-- The life of a turn epoch, over every run of a fresh engine. -/
structure EpochLaw : Prop where
  /-- An epoch publishes at most one idle. -/
  once : ∀ inputs n, ((machine cfg).outputs {} inputs).countP (·.isIdleOf n) ≤ 1
  /-- The key of an idle names the epoch it is published in, and that epoch is closed then. -/
  keyed : ∀ inputs i epoch p,
    BeliefEvent.emitted epoch (.publish p) ∈
      ((machine cfg).step ((machine cfg).after {} inputs) i).2 → p.kind = .idle →
    epoch = ((machine cfg).after {} inputs).turnEpoch ∧ p.decisionKey = .idle epoch ∧
      ((machine cfg).after {} (inputs ++ [i])).turnClosed = true
  /-- A closed epoch rests, and until a `UserPromptSubmit` no call publishes anything; the control
  state stays or becomes terminal. -/
  final : ∀ pre post, ((machine cfg).after {} pre).turnClosed = true →
    (∀ i ∈ post, i.opensTurn = false) →
    (((machine cfg).after {} pre).state.controlState = .idle ∨
        ((machine cfg).after {} pre).state.controlState = .terminal) ∧
      (((machine cfg).after {} (pre ++ post)).state.controlState =
          ((machine cfg).after {} pre).state.controlState ∨
        ((machine cfg).after {} (pre ++ post)).state.controlState = .terminal) ∧
      ∀ ev ∈ (machine cfg).outputs ((machine cfg).after {} pre) post, ev.isPublish = false
  /-- Hook mode stays active, and no later tick asks the user. -/
  hooked : ∀ pre post, ((machine cfg).after {} pre).hookMode = .active →
    ((machine cfg).after {} (pre ++ post)).hookMode = .active ∧
      ∀ i : Input, i.isTick = true →
        ∀ ev ∈ ((machine cfg).step ((machine cfg).after {} (pre ++ post)) i).2,
          ev.isWaiting = false

theorem epoch_law : EpochLaw cfg where
  once inputs n := idle_count cfg epochsOk_fresh n inputs
  keyed inputs i epoch p emitted idle := by
    have ok := epochsOk_after cfg epochsOk_fresh inputs
    rw [Core.Machine.after_append]
    exact idle_closes cfg ok i emitted idle
  final pre post closed noOpen := by
    have ok := epochsOk_after cfg epochsOk_fresh pre
    rw [Core.Machine.after_append]
    exact ⟨ok.rests closed, closed_run cfg ok closed post noOpen⟩
  hooked pre post active := by
    have later : ((machine cfg).after {} (pre ++ post)).hookMode = .active := by
      rw [Core.Machine.after_append]
      exact active_after cfg active post
    refine ⟨later, ?_⟩
    intro i isTick
    cases i with
    | tick obs ctx now =>
      refine no_event cfg _ (.tick obs ctx now) (fun _ _ silent => silent) (by simp [marks]) ?_
      exact active_tick cfg later obs ctx now
    | hook hobs now => simp [Input.isTick] at isTick
    | submit now => simp [Input.isTick] at isTick
    | expectHooks now => simp [Input.isTick] at isTick

end BeliefEngine

end Nelix.Daemon
