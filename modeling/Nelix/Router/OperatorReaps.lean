import Nelix.Router.OperatorScene

/-!
# Which daemons retire reaps

An epoch is exposed while its row is serving, its retirement is not certified and its daemon is
alive. Phase 1 goes through the epochs as they were listed before the lock was taken and certifies
the one the pointer named then; phase 2 reaps and releases what it lists anew.

## Main results

`retire_reaps_unexposed`: as long as the exposed epochs are those that phase 1 visits, no exposed
epoch is ever reaped or loses its leases.
-/
namespace Nelix.Router

open Contracts Core Store Prog Routine

/-- The epoch is served by a live daemon and is not certified. -/
def Scene.exposed (w : Scene) (g e : String) : Prop :=
  ∃ row ∈ w.db.epochs.rows, row.generationEpoch = e ∧ row.generationId = g ∧
    row.processState = .serving ∧ row.retirementState ≠ .certified ∧ w.alive e = true

instance (w : Scene) (g e : String) : Decidable (w.exposed g e) := by
  unfold Scene.exposed; infer_instance

def Scene.dead (w : Scene) (e : String) : Prop :=
  ∃ row ∈ w.db.epochs.rows, row.generationEpoch = e ∧ row.processState = .dead

def Scene.readable (w : Scene) (e : String) : Prop :=
  ∀ row ∈ w.db.epochs.rows, row.generationEpoch = e → row.decode.isSome

/-- The effect stops the daemon of the epoch or releases its leases. -/
def Act.takes (e : String) : Act → Bool
  | ⟨.reaping e', .reapHolder ..⟩ => e' = e
  | ⟨_, .releaseEpoch _ e'⟩ => e' = e
  | _ => false

/-- A deed that exposes no epoch of the generation and revives none. -/
def undisturbed (g : String) (w : Scene) (deed : Deed) : Prop :=
  (∀ e, (w.after deed).exposed g e → w.exposed g e) ∧ ∀ e, w.dead e → (w.after deed).dead e

/-- The pointer is read as `p`; at the listing, every exposed epoch is the one `p` names and its row
can be read. -/
def covered (g : String) (p : Option String) : (a : Act) → Scene → a.Answer → Prop
  | ⟨.reading, .ask (.getGeneration _)⟩, _, r => ∀ gen, r = .ok gen → gen.currentEpoch = p
  | ⟨.reading, .ask (.listEpochs _)⟩, w, _ => ∀ e, w.exposed g e → p = some e ∧ w.readable e
  | _, _, _ => True

/-! ### What exposes an epoch -/

/-- A row that serves uncertified did so before, or its epoch was promoted, moved by hand or taken
out of certification. -/
theorem serving_before {call : Call} {db db' : Db} (done : call.apply db = .ok db')
    {row' : EpochRow} (member : row' ∈ db'.epochs.rows) (serving : row'.processState = .serving)
    (uncertified : row'.retirementState ≠ .certified) :
    (∃ row ∈ db.epochs.rows, row.generationEpoch = row'.generationEpoch ∧
        row.generationId = row'.generationId ∧ row.processState = .serving ∧
        row.retirementState ≠ .certified) ∨
      (∃ expected incarnation, call =
        .casEpochServing row'.generationId row'.generationEpoch expected incarnation) ∨
      call = .setEpochProcessState row'.generationEpoch .serving ∨
      ∃ state certificate final,
        call = .setEpochRetirement row'.generationEpoch state certificate final ∧
        state ≠ .certified := by
  rcases Call.epoch_cases done member with old | ⟨row, old, move⟩ | ⟨_, -, -, -, starting, -⟩
  · exact .inl ⟨row', old, rfl, rfl, serving, uncertified⟩
  · obtain ⟨named, owned⟩ := move.key
    cases move with
    | promoted expected incarnation here was shaped => exact .inr (.inl ⟨expected, incarnation, here⟩)
    | process state here =>
      obtain rfl : state = .serving := serving
      exact .inr (.inr (.inl here))
    | retirement state certificate final cell high here bound checked =>
      refine .inr (.inr (.inr ⟨state, certificate, final, named ▸ here, ?_⟩))
      rintro rfl
      exact uncertified rfl
    | reconciled here => cases serving
  · rw [starting] at serving
    cases serving

/-- An effect that can expose the epoch. -/
def reveals (e : String) : Effect → Bool
  | .write (.casEpochServing _ e' ..) => e' = e
  | .write (.setEpochProcessState e' _) => e' = e
  | .write (.setEpochRetirement e' state ..) => e' = e && state ≠ .certified
  | _ => false

variable {w w' : Scene} {a : Act} {r : a.Answer} {g e : String} {p : Option String}

theorem exposed_before (acts : operates a w r w') (now : w'.exposed g e) :
    w.exposed g e ∨ reveals e a.effect = true := by
  obtain ⟨row', member, named, owned, serving, uncertified, alive⟩ := now
  rcases operates_db acts with ⟨call, effect, rfl⟩ | ⟨kept, shrinks⟩
  · rw [effect]
    simp only [Scene.after, settled] at member alive
    cases done : call.apply w.db with
    | error raised =>
      rw [done] at member
      exact .inl ⟨row', member, named, owned, serving, uncertified, alive⟩
    | ok db' =>
      rw [done] at member
      rcases serving_before done member serving uncertified with
        ⟨row, old, same, owned', served, uncertified'⟩ | ⟨_, _, rfl⟩ | rfl | ⟨_, _, _, rfl, left⟩
      · exact .inl ⟨row, old, same.trans named, owned'.trans owned, served, uncertified', alive⟩
      · exact .inr (by simp [reveals, named])
      · exact .inr (by simp [reveals, named])
      · exact .inr (by simp [reveals, named, left])
  · rw [kept] at member
    exact .inl ⟨row', member, named, owned, serving, uncertified, shrinks e alive⟩

theorem dead_after (acts : operates a w r w') (dead : w.dead e)
    (unwritten : ∀ e state, a.effect ≠ .write (.setEpochProcessState e state)) : w'.dead e := by
  obtain ⟨row, member, named, dead⟩ := dead
  rcases operates_db acts with ⟨call, effect, rfl⟩ | ⟨kept, -⟩
  · simp only [Scene.dead, Scene.after, settled]
    cases done : call.apply w.db with
    | error raised => exact ⟨row, member, named, dead⟩
    | ok db' =>
      rcases Call.epoch_stays done member with stays | ⟨row', moved, move⟩
      · exact ⟨row, stays, named, dead⟩
      · refine ⟨row', moved, move.key.1.trans named, ?_⟩
        cases move with
        | promoted expected incarnation here starting shaped =>
          rw [dead] at starting
          cases starting
        | process state here => exact absurd (here ▸ effect) (unwritten _ _)
        | retirement state certificate final cell high here bound checked =>
          cases state <;> exact dead
        | reconciled here => rfl
  · exact ⟨row, kept ▸ member, named, dead⟩

/-- A dead epoch is not exposed. -/
theorem Scene.dead.not_exposed (dead : w.dead e) : ¬ w.exposed g e := by
  rintro ⟨row, member, named, -, serving, -⟩
  obtain ⟨other, here, named', dead⟩ := dead
  have same : other = row := Table.eq_of_key here member (named'.trans named.symm)
  rw [← same, dead] at serving
  cases serving

/-! ### Phase 1 -/

/-- The call among others that disturb nothing, with its first reads covered. -/
abbrev calm (g : String) (p : Option String) : Setting Act Act.Answer Scene :=
  operator (undisturbed g) (covered g p)

/-- No exposed epoch loses its daemon or its leases. -/
def spares (g : String) (a : Act) (w : Scene) : Prop :=
  ∀ e, a.takes e = true → ¬ w.exposed g e

/-- What is exposed is what the pointer named, and phase 1 still comes to it. -/
def Pending (g : String) (p : Option String) (rest : List EpochRecord) (w : Scene) : Prop :=
  ∀ e, w.exposed g e → p = some e ∧ ∃ ep ∈ rest, ep.generationEpoch = e ∧
    ep.retirementState ≠ .certified ∧ ep.processState ≠ .dead

variable {rest : List EpochRecord} {ep : EpochRecord} {at_ : Surroundings}

theorem Pending.rely (w w' : Scene) (moves : (calm g p).rely w w') (pending : Pending g p rest w) :
    Pending g p rest w' :=
  operator_rely (Pending g p rest)
    (fun _ _ calm pending e now => pending e (calm.1 e now)) w w' moves pending

/-- Phase 1 passes an epoch over only where it is not the exposed one. -/
theorem Pending.pass (pending : Pending g p (ep :: rest) w)
    (settled : ep.retirementState = .certified ∨ ep.processState = .dead ∨
      p ≠ some ep.generationEpoch) : Pending g p rest w := by
  intro e now
  obtain ⟨named, listed, member, same, uncertified, undead⟩ := pending e now
  rcases List.mem_cons.mp member with rfl | later
  · rcases settled with certified | dead | other
    · exact absurd certified uncertified
    · exact absurd dead undead
    · exact absurd (same ▸ named) other
  · exact ⟨named, listed, later, same, uncertified, undead⟩

/-- What an effect reveals has to be pending itself. -/
theorem Pending.keep (pending : Pending g p rest w) (acts : operates a w r w')
    (revealed : ∀ e, reveals e a.effect = true → w'.exposed g e → p = some e ∧
      ∃ ep ∈ rest, ep.generationEpoch = e ∧ ep.retirementState ≠ .certified ∧
        ep.processState ≠ .dead) : Pending g p rest w' := by
  intro e now
  rcases exposed_before acts now with before | reveals
  · exact pending e before
  · exact revealed e reveals now

/-- A stage other than reaping and releasing takes nothing. -/
theorem takes_nothing {stage : Stage} {site : Site} {effect : Effect} {e : String}
    (does : stage.does effect = true) (reaps : stage ≠ .reaping) (releases : stage ≠ .releasing) :
    Act.takes e ⟨site, effect⟩ = false := by
  cases effect with
  | reapHolder => cases stage <;> simp_all [Stage.does]
  | releaseEpoch => cases stage <;> simp_all [Stage.does]
  | _ => cases site <;> rfl

theorem reveals_own {epoch : String} {effect : Effect} (shown : reveals e effect = true)
    (does : (Stage.reconciling epoch).does effect = true ∨
      (Stage.serving epoch).does effect = true) : e = epoch := by
  cases effect with
  | write call =>
    cases call with
    | setEpochRetirement e' state => cases state <;> simp_all [reveals, Stage.does]
    | _ => simp_all [reveals, Stage.does]
  | _ => simp [reveals] at shown

/-- Only closing admission can reveal an epoch. -/
theorem reveals_nothing {stage : Stage} {effect : Effect} (does : stage.does effect = true)
    (reconciles : ∀ epoch, stage ≠ .reconciling epoch) (serves : ∀ epoch, stage ≠ .serving epoch) :
    reveals e effect = false := by
  cases effect with
  | write call =>
    cases call with
    | setEpochRetirement e' state =>
      cases stage <;> cases state <;> simp_all [reveals, Stage.does]
    | _ => cases stage <;> simp_all [reveals, Stage.does]
  | _ => rfl

theorem dead_rely (w w' : Scene) (moves : (calm g p).rely w w') (dead : w.dead e) : w'.dead e :=
  operator_rely (·.dead e) (fun _ _ calm dead => calm.2 e dead) w w' moves dead

theorem dead_of_listed {epochs : List EpochRecord} {epoch : String}
    (listed : w.db.listEpochsStrict g = .ok epochs)
    (found : epochs.find? (·.generationEpoch = epoch) = some ep)
    (dead : ep.processState = .dead) : w.dead epoch := by
  obtain ⟨row, member, -, read⟩ := row_of_listed listed (List.mem_of_find?_eq_some found)
  obtain ⟨named, -, process, -⟩ := decode_eq_some read
  have same : ep.generationEpoch = epoch := by simpa using List.find?_some found
  exact ⟨row, member, named.symm.trans same, process.symm.trans dead⟩

/-- Reconciling a dead epoch closes admission of an epoch that is not exposed by it. -/
theorem crashReconcileEpoch_safe {epoch : String} (pending : Pending g p rest w) :
    (calm g p).Safe (spares g) (fun _ w => Pending g p rest w)
      (crashReconcileEpoch at_ g epoch) w := by
  let ok : Act → Prop := fun a =>
    (Stage.reconciling epoch).does a.effect = true ∨ (Stage.certifying epoch).does a.effect = true
  have fits : (Stage.reconciling epoch).Fits ok .reconciling := fun effect does => .inl does
  have certifies : (Stage.certifying epoch).Fits ok .reconciling := fun effect does => .inr does
  have fine : ∀ a w, ok a → spares g a w := by
    rintro ⟨site, effect⟩ w does e takes
    rcases does with does | does <;> rw [takes_nothing does nofun nofun] at takes <;> cases takes
  refine safe_ask (Pending g p rest) Pending.rely (fun w _ => fine _ w (.inl rfl)) pending
    (fun _ _ held => held) fun epochs w held listed _ => ?_
  by_cases gone : w.dead epoch
  · -- Dead when it was read again: it stays so, whatever is written of its retirement.
    have only : (crashReconcileEpoch at_ g epoch).Only ok :=
      only_crashReconcileEpoch fits certifies
    refine (Setting.Safe.keeps (fun w => Pending g p rest w ∧ w.dead epoch) (only.2 (.ok epochs))
      ?_ ?_ ?_ ⟨held, gone⟩).mono fun _ _ both => both.1
    · exact fun w w' moves both => ⟨Pending.rely w w' moves both.1, dead_rely w w' moves both.2⟩
    · rintro a w r w' does ⟨pending, dead⟩ ⟨acts, -⟩
      have dead' : w'.dead epoch := dead_after acts dead fun e state write => by
        rcases does with does | does <;> rw [write] at does <;> cases does
      refine ⟨pending.keep acts fun e shown now => ?_, dead'⟩
      rcases does with does | does
      · obtain rfl := reveals_own shown (.inl does)
        exact absurd now dead'.not_exposed
      · rw [reveals_nothing does nofun nofun] at shown
        cases shown
    · exact fun a w allowed _ => fine a w allowed
  · -- Otherwise the epoch was not found dead, and nothing more happens.
    cases found : epochs.find? (·.generationEpoch = epoch) with
    | none => exact fun w' moves => Pending.rely w w' moves held
    | some ep =>
      have undead : ep.processState ≠ .dead := fun dead =>
        gone (dead_of_listed listed found dead)
      dsimp only
      rw [if_pos undead]
      exact fun w' moves => Pending.rely w w' moves held

/-! The clean path: the epoch the pointer named. -/

theorem certified_of_read {epoch : String}
    (read : w.db.getEpochRetirementState epoch = .ok .certified) : ¬ w.exposed g epoch := by
  simp only [Db.getEpochRetirementState, Db.requireEpoch, bind_ok, demand_ok, pure, Except.pure,
    Except.ok.injEq] at read
  obtain ⟨-, -, row, found, certified⟩ := read
  rintro ⟨other, member, named, -, -, uncertified, -⟩
  have held := Table.find?_of_mem member
  have same : other = row := by
    have found' : w.db.epochs.find? other.generationEpoch = some row := named ▸ found
    simpa using held.symm.trans found'
  exact uncertified (same ▸ certified)

/-- Certifying the epoch the pointer named leaves nothing exposed. -/
theorem certifyServing_safe (pending : Pending g (some ep.generationEpoch) (ep :: rest) w)
    (open_ : ep.retirementState ≠ .certified ∧ ep.processState ≠ .dead) :
    (calm g (some ep.generationEpoch)).Safe (spares g)
      (fun r w => r = .ok none → Pending g (some ep.generationEpoch) [] w)
      (certifyServing at_ g ep) w := by
  let ok : Act → Prop := fun a => (Stage.serving ep.generationEpoch).does a.effect = true ∨
    (Stage.requesting ep.generationEpoch).does a.effect = true ∨ Stage.resolving.does a.effect = true
  have serving : (Stage.serving ep.generationEpoch).Fits ok .retiring := fun effect does => .inl does
  have requesting : (Stage.requesting ep.generationEpoch).Fits ok .retiring :=
    fun effect does => .inr (.inl does)
  have resolving : Stage.resolving.Fits ok .certifying := fun effect does => .inr (.inr does)
  have fine : ∀ a w, ok a → spares g a w := by
    rintro ⟨site, effect⟩ w does e takes
    rcases does with does | does | does <;> rw [takes_nothing does nofun nofun] at takes <;>
      cases takes
  -- Up to the refresh, all that can become exposed is the epoch that is being certified.
  have own : ∀ a w r w', ok a → Pending g (some ep.generationEpoch) (ep :: rest) w →
      (calm g (some ep.generationEpoch)).act a w r w' →
      Pending g (some ep.generationEpoch) (ep :: rest) w' := by
    rintro a w r w' does pending ⟨acts, -⟩
    refine pending.keep acts fun e shown _ => ?_
    rcases does with does | does | does
    · obtain rfl := reveals_own shown (.inr does)
      exact ⟨rfl, ep, by simp, rfl, open_⟩
    · rw [reveals_nothing does nofun nofun] at shown
      cases shown
    · rw [reveals_nothing does nofun nofun] at shown
      cases shown
  have step : ∀ {α : Type} {q : Routine α} {f : α → Routine (Option Hold)}, q.Only ok →
      (∀ a w, Pending g (some ep.generationEpoch) (ep :: rest) w →
        (calm g (some ep.generationEpoch)).Safe (spares g)
          (fun r w => r = .ok none → Pending g (some ep.generationEpoch) [] w) (f a) w) →
      ∀ w, Pending g (some ep.generationEpoch) (ep :: rest) w →
        (calm g (some ep.generationEpoch)).Safe (spares g)
          (fun r w => r = .ok none → Pending g (some ep.generationEpoch) [] w) (q >>= f) w :=
    fun only next w held => Setting.Safe.first _ only Pending.rely own
      (fun a w allowed _ => fine a w allowed) held nofun next
  have stop : ∀ hold w, (calm g (some ep.generationEpoch)).Safe (spares g)
      (fun r w => r = .ok none → Pending g (some ep.generationEpoch) [] w)
      (pure (some hold) : Routine (Option Hold)) w := fun _ _ _ _ => nofun
  refine step (only_closeAdmission serving) (fun _ => step (only_quiesce serving) fun _ =>
    step (only_resolveConfirmed resolving) fun resolved w held => ?_) w pending
  split
  · exact stop _ w
  refine step (only_quiesceStatus serving) (fun status => step .done fun quiesced w held => ?_) w held
  split
  · exact stop _ w
  refine step (only_certify requesting) (fun _ w held => ?_) w held
  refine safe_ask (Pending g (some ep.generationEpoch) (ep :: rest)) Pending.rely
    (fun w _ => fine _ w (.inl rfl)) held (fun _ _ _ => nofun) fun refreshed w held read _ => ?_
  split
  · exact stop _ w
  -- The row is certified: nothing is exposed any more, and nothing that follows exposes anything.
  rename_i certified
  rw [not_not] at certified
  subst certified
  have hidden : Pending g (some ep.generationEpoch) [] w := by
    intro e now
    obtain ⟨named, -⟩ := held e now
    cases named
    exact absurd now (certified_of_read read)
  let asks : Act → Prop := fun a => Stage.resolving.does a.effect = true
  have after : ∀ site, Stage.resolving.Fits asks site := fun site effect does => does
  have only : (do
      if (← resolveConfirmed at_ .certifying ep.generationEpoch) = false then
        pure (some .confirmedBelowFinal)
      else if (← confirmedReaches g ep.generationEpoch) = false then
        pure (some .confirmedBelowFinal)
      else pure none : Routine (Option Hold)).Only asks := by
    refine .bind (only_resolveConfirmed (after _)) fun _ => ?_
    split
    · exact .pure
    refine .bind (only_confirmedReaches (after _)) fun _ => ?_
    split <;> exact .pure
  refine (Setting.Safe.keeps _ only Pending.rely ?_ ?_ hidden).mono fun _ _ held _ => held
  · rintro a w r w' does held ⟨acts, -⟩
    refine held.keep acts fun e shown _ => ?_
    rw [reveals_nothing does nofun nofun] at shown
    cases shown
  · rintro ⟨site, effect⟩ w does _ e takes
    rw [takes_nothing does nofun nofun] at takes
    cases takes

/-- Phase 1 at one listed epoch. -/
theorem certifyListed_safe (pending : Pending g p (ep :: rest) w) :
    (calm g p).Safe (spares g) (fun r w => r = .ok none → Pending g p rest w)
      (certifyListed at_ g p ep) w := by
  unfold certifyListed
  split
  · rename_i certified
    exact fun w' moves _ => (Pending.rely w w' moves pending).pass (.inl certified)
  split
  · rename_i dead
    refine Setting.Safe.bind ((crashReconcileEpoch_safe (pending.pass (.inr (.inl dead)))).mono ?_)
    rintro (x | _ | obstacle) w held
    · exact nofun
    · exact fun w' moves _ => Pending.rely w w' moves held
    · exact fun _ _ => nofun
  rename_i uncertified undead
  split
  · rename_i current
    subst current
    refine (certifyServing_safe pending ⟨uncertified, undead⟩).mono fun r w hidden ended e now => ?_
    obtain ⟨-, _, absurd, -⟩ := hidden ended e now
    cases absurd
  · rename_i other
    exact fun w' moves _ => (Pending.rely w w' moves pending).pass (.inr (.inr other))

/-- Phase 1 over the whole listing leaves nothing exposed. -/
theorem certifyVisit_safe {epochs : List EpochRecord} (pending : Pending g p epochs w) :
    (calm g p).Safe (spares g) (fun r w => r = .ok none → Pending g p [] w)
      (Prog.visit (certifyListed at_ g p) epochs) w := by
  refine Setting.Safe.visit (Pending g p) pending (fun ep rest w held => ?_) ?_ ?_
  · refine (certifyListed_safe held).mono fun r w kept => ?_
    match r, kept with
    | .error x, _ => exact nofun
    | .ok none, kept => exact kept rfl
    | .ok (some verdict), _ => exact nofun
  · exact fun w held w' moves _ => Pending.rely w w' moves held
  · exact fun _ _ _ _ _ => nofun

/-! ### The whole call -/

/-- With nothing exposed, the last two phases take what they like. -/
theorem late_safe {α : Type} {q : Routine α} (only : q.Only Late) (hidden : Pending g p [] w) :
    (calm g p).Safe (spares g) (fun _ w => Pending g p [] w) q w := by
  refine Setting.Safe.keeps _ only Pending.rely ?_ ?_ hidden
  · rintro a w r w' ⟨stage, does, late⟩ held ⟨acts, -⟩
    refine held.keep acts fun e shown _ => ?_
    rw [reveals_nothing does (by rintro _ rfl; cases late) (by rintro _ rfl; cases late)] at shown
    cases shown
  · rintro a w - held e - now
    obtain ⟨-, _, absurd, -⟩ := held e now
    cases absurd

theorem retireLocked_safe {gen : GenerationRow} {epochs : List EpochRecord}
    (named : gen.currentEpoch = p) (pending : Pending g p epochs w) :
    (calm g p).Safe (spares g) (fun _ _ => True) (retireLocked at_ g gen epochs) w := by
  subst named
  -- Either phase 1 stops the call, or nothing is exposed from here on.
  refine Setting.Safe.bind (Setting.Safe.otherwise ((certifyVisit_safe pending).mono
    fun r w hidden => ?_))
  match r, hidden with
  | .error x, _ => exact trivial
  | .ok (some hold), _ => exact fun _ _ _ _ => trivial
  | .ok none, hidden =>
    refine (late_safe late_gates (hidden rfl)).mono fun r w held => ?_
    match r with
    | .error x => exact trivial
    | .ok (some hold) => exact fun _ _ => trivial
    | .ok none => exact (late_safe late_finalize held).mono fun _ _ _ => trivial

theorem readGeneration_safe :
    (calm g p).Safe (spares g) (fun r _ => ∀ gen, r = .ok gen → gen.currentEpoch = p)
      (readGeneration g) w := by
  refine Setting.Safe.rescue fun w' _ => ⟨nofun, ?_⟩
  rintro r w'' ⟨-, named⟩ w₃ -
  cases r with
  | ok gen =>
    rintro _ ⟨⟩
    exact named gen rfl
  | error x =>
    dsimp only [Setting.Handled]
    split
    · split
      · exact fun _ _ => nofun
      · exact fun _ _ => nofun
    · exact fun _ _ => nofun

/-- The listing that was covered holds every exposed epoch, open and not dead. -/
theorem pending_of_listed {epochs : List EpochRecord} (listed : w.db.listEpochs g = .ok epochs)
    (first : ∀ e, w.exposed g e → p = some e ∧ w.readable e) : Pending g p epochs w := by
  intro e now
  obtain ⟨named, readable⟩ := first e now
  obtain ⟨row, member, same, owned, serving, uncertified, -⟩ := now
  obtain ⟨ep, read⟩ := Option.isSome_iff_exists.mp (readable row member same)
  obtain ⟨name, -, process, retirement, -⟩ := decode_eq_some read
  refine ⟨named, ep, ?_, name.trans same, retirement ▸ uncertified, ?_⟩
  · rw [← (listEpochs_ok.mp listed).2]
    exact List.mem_filterMap.mpr ⟨row, mem_epochRows.mpr ⟨member, owned⟩, read⟩
  · rw [process, serving]
    nofun

theorem retire_safe : (calm g p).Safe (spares g) (fun _ _ => True) (retire at_ g) w := by
  have anything : ∀ {α : Type} (r : Except Raised α) w,
      (calm g p).Safe (spares g) (fun _ _ => True) (.done r : Routine α) w :=
    fun _ _ _ _ => trivial
  unfold retire
  split
  · exact anything _ w
  refine Setting.Safe.bind (readGeneration_safe.mono ?_)
  rintro (x | gen) w named
  · exact trivial
  dsimp only [Setting.After]
  split
  · exact anything _ w
  split
  · exact anything _ w
  -- The second read: the listing that phase 1 goes through.
  refine safe_ask (fun _ => True) (fun _ _ _ _ => trivial) (fun _ _ => nofun) trivial
    (fun _ _ _ => trivial) fun epochs w _ listed first => ?_
  have pending : Pending g p epochs w := pending_of_listed listed first
  unfold retireListed
  split
  · exact anything _ w
  have locks : lock.Only (· = ⟨.retiring, .lock⟩) := .perform rfl fun _ => .done
  refine Setting.Safe.first _ locks Pending.rely ?_ ?_ pending (fun _ _ _ => trivial)
    fun _ w held => ?_
  · rintro _ w r w' rfl held ⟨acts, -⟩
    exact held.keep acts fun e shown => by cases shown
  · rintro _ w rfl - e takes
    cases takes
  refine Setting.Safe.ensure ((retireLocked_safe (named gen rfl) held).mono fun r w _ => ?_)
  exact fun w' _ => ⟨nofun, fun _ _ _ => anything _ _⟩

/-- In every run of the call among others, started in any state: when the exposed epochs are covered
by the first reads and nobody exposes or revives one during the call, then the epoch whose daemon is
about to be reaped or whose leases are about to be released is certified or not serving a live
daemon. -/
theorem retire_reaps_unexposed (at_ : Surroundings) (g : String) (p : Option String) (w : Scene)
    (c : Routine RetireReply × Scene)
    (steps : Relation.ReflTransGen (calm g p).Step (retire at_ g, w) c) :
    ∀ e, c.1.head?.any (·.takes e) = true → ¬ c.2.exposed g e := by
  intro e about
  cases heads : c.1.head? with
  | none =>
    rw [heads] at about
    cases about
  | some a =>
    rw [heads] at about
    exact retire_safe.reach steps heads e about

/-- A generation with one epoch, which serves and is certified. -/
def certifiedServing : Scene where
  db := Store.machine.after {}
    [.createGeneration sampleGeneration none .draining none (.finite 1),
      .insertEpoch firstEpoch sampleGeneration none (.finite 1),
      .casEpochServing sampleGeneration firstEpoch none (some "incarnation"),
      .setEpochRetirement firstEpoch .certified (.text "c") (some 0)]
  alive e := e = firstEpoch

/-- The pointer is read as `p`, and nothing that serves is uncertified at the listing. -/
def coveredSimply (p : Option String) : Act → Scene → Bool
  | ⟨.reading, .ask (.getGeneration g)⟩, w =>
    match w.db.getGeneration g with
    | .ok gen => gen.currentEpoch = p
    | .error _ => true
  | ⟨.reading, .ask (.listEpochs _)⟩, w => w.db.epochs.rows.all (·.retirementState = .certified)
  | _, _ => true

theorem covered_of_simply {a : Act} (simply : coveredSimply p a w = true) :
    (calm g p).act a w (Scene.handle a w).1 (Scene.handle a w).2 := by
  refine ⟨operates_handle a w, ?_⟩
  obtain ⟨site, effect⟩ := a
  cases site <;> cases effect <;> try trivial
  rename_i q
  cases q <;> try trivial
  · rename_i g
    intro gen read
    simp only [coveredSimply] at simply
    simp only [Scene.handle, Db.answer] at read
    rw [read] at simply
    simpa using simply
  · simp only [coveredSimply, List.all_eq_true, decide_eq_true_eq] at simply
    rintro e ⟨row, member, -, -, -, uncertified, -⟩
    exact absurd (simply row member) uncertified

/-- The certified epoch is the one whose daemon is reaped. -/
theorem retire_reaps_certified :
    ∃ c, Relation.ReflTransGen (calm sampleGeneration (some firstEpoch)).Step
        (retire oneProcess sampleGeneration, certifiedServing) c ∧
      c.1.head?.any (·.takes firstEpoch) = true ∧ ¬ c.2.exposed sampleGeneration firstEpoch := by
  have steps : Relation.ReflTransGen (calm sampleGeneration (some firstEpoch)).Step
      (retire oneProcess sampleGeneration, certifiedServing)
      ((retire oneProcess sampleGeneration).advance Scene.handle 6 certifiedServing) :=
    Setting.steps_advance (fun _ _ => covered_of_simply) (by decide +kernel)
  have reaps : ((retire oneProcess sampleGeneration).advance Scene.handle 6
      certifiedServing).1.head?.any (·.takes firstEpoch) = true := by decide +kernel
  exact ⟨_, steps, reaps, retire_reaps_unexposed oneProcess sampleGeneration (some firstEpoch)
    certifiedServing _ steps firstEpoch reaps⟩

/-- A daemon crashed and its epoch was found dead; its successor is spawned and not promoted yet. -/
def successorSpawned : Scene where
  db := Store.machine.after {}
    [.createGeneration sampleGeneration none .draining none (.finite 1),
      .insertEpoch firstEpoch sampleGeneration none (.finite 1),
      .casEpochServing sampleGeneration firstEpoch none (some "incarnation"),
      .reconcileEpochDead sampleGeneration firstEpoch,
      .insertEpoch secondEpoch sampleGeneration none (.finite 2)]
  alive e := e = secondEpoch

/-- The registry's promotion of the successor. -/
def promotion : Deed :=
  .store (.casEpochServing sampleGeneration secondEpoch none (some "incarnation"))

/-- The successor is promoted between the read of the pointer and the listing: phase 1 passes it
over, and phase 2 is about to reap its daemon, which serves and is not certified. -/
theorem retire_reaps_successor :
    ∃ c, Relation.ReflTransGen (operator (fun _ _ => True) fun _ _ _ => True).Step
        (retire oneProcess sampleGeneration, successorSpawned) c ∧
      c.1.head?.any (·.takes secondEpoch) = true ∧
      c.2.exposed sampleGeneration secondEpoch := by
  let c := (retire oneProcess sampleGeneration).advance Scene.handle 1 successorSpawned
  refine ⟨c.1.advance Scene.handle 12 (c.2.after promotion), ?_, by decide +kernel,
    by decide +kernel⟩
  have admitted : ∀ a w, (fun _ _ => true : Act → Scene → Bool) a w = true →
      (operator (fun _ _ => True) fun _ _ _ => True).act a w (Scene.handle a w).1
        (Scene.handle a w).2 := fun a w _ => ⟨operates_handle a w, trivial⟩
  have read : Relation.ReflTransGen (operator (fun _ _ => True) fun _ _ _ => True).Step
      (retire oneProcess sampleGeneration, successorSpawned) c :=
    Setting.steps_advance admitted (by decide +kernel)
  have promoted : (operator (fun _ _ => True) fun _ _ _ => True).Step c
      (c.1, c.2.after promotion) := .other (.single ⟨promotion, trivial, rfl⟩)
  exact (read.tail promoted).trans (Setting.steps_advance admitted (by decide +kernel))

end Nelix.Router
