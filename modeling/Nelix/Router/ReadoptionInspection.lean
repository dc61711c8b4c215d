import Nelix.Router.Readoption

/-!
# The eager reconcile as a whole

The inspection of the epoch that a pointer names, and what it and the repair of a pointer make of
the reconcile.

## Main results

`eagerReconcile_controls_iff`: a reconcile that finishes leaves every epoch of the active
generation dead but the adopted one, in exactly the cases that `Replies.Reconciles` describes.
-/
namespace Nelix.Router

open Contracts Core Store GenRoutine

variable {c : Replies} {w w' : Boot} {g e : String} {buildId : Option String} {db d : Db}
  {names : List String} {epochs : List EpochRecord}

/-! ### The inspection of the current epoch -/

/-- Promotes the current epoch, whose holder was read again. -/
def promoteCurrent (at_ : Deployment) (gid : String) (buildId : Option String)
    (currentEpoch : String) (holder : Holder) (transport : String) : GenRoutine Registry.Inspection := do
  let promoted ← exceptNelix (do
    write (.casEpochServing gid currentEpoch (some currentEpoch)
      (some (at_.incarnationMeta holder.incarnation)))
    pure true)
    fun _ => do
      write (.reconcileEpochDead gid currentEpoch)
      pure false
  if promoted = false then pure .settled
  else do
    let reRead ← liveLockHolder gid
    if stillHeld reRead holder.incarnation = false then do
      write (.reconcileEpochDead gid currentEpoch)
      pure .settled
    else do
      install ⟨holder.incarnation, currentEpoch, gid, transport, buildId⟩ false
      pure .settled

/-- What the inspection does about what it has seen. -/
def settle (at_ : Deployment) (gid : String) (buildId : Option String) (currentEpoch : String)
    (processState : Option ProcessState) : Look → GenRoutine Registry.Inspection
  | .unconfirmed => pure .unconfirmed
  | .replaced => pure .settled
  | .alive holder transport =>
    if processState = some .starting then
      promoteCurrent at_ gid buildId currentEpoch holder transport
    else do
      install ⟨holder.incarnation, currentEpoch, gid, transport, buildId⟩ false
      pure .settled

variable {at_ : Deployment} {processState : Option ProcessState}

theorem adoptServing_eq (holder : Holder) (transport : String) :
    Registry.adoptServing g buildId e holder transport =
      lookAgain g holder transport >>= settle at_ g buildId e (some .serving) := by
  rw [lookAgain, Prog.bind_assoc, Registry.adoptServing]
  congr
  funext again
  split <;> rfl

theorem adoptStarting_eq (holder : Holder) (transport : String) :
    Registry.adoptStarting at_ g buildId e holder transport =
      lookAgain g holder transport >>= settle at_ g buildId e (some .starting) := by
  rw [lookAgain, Prog.bind_assoc, Registry.adoptStarting]
  congr
  funext again
  cases stillHeld again holder.incarnation <;> rfl

/-- The inspection asks first and acts on what it has seen. -/
theorem inspectCurrent_eq : Registry.inspectCurrent at_ g buildId e processState =
    look at_ g buildId e processState >>= settle at_ g buildId e processState := by
  rw [Registry.inspectCurrent, look, Prog.bind_assoc]
  congr
  funext holder
  cases holder with
  | none => rfl
  | some holder =>
    dsimp only
    cases holder.transport with
    | some transport =>
      dsimp only
      rw [Prog.bind_assoc]
      congr
      funext identity
      cases identity with
      | none => rfl
      | some identity =>
        dsimp only
        split
        · match processState with
          | some .serving => exact adoptServing_eq holder transport
          | some .starting => exact adoptStarting_eq holder transport
          | some .dead => rfl
          | none => rfl
        · rfl
    | none =>
      dsimp only
      rw [Prog.bind_assoc]
      congr
      funext ep
      cases ep with
      | none => rfl
      | some ep =>
        dsimp only
        split
        · rename_i serving
          subst serving
          exact adoptServing_eq holder ep
        · rfl

/-- What a look may come to, by the state of the row. -/
def Seen (processState : Option ProcessState) : Except Raised Look → Prop
  | .ok (.alive _ _) => processState = some .serving ∨ processState = some .starting
  | _ => True

theorem lookAgain_ends (holder : Holder) (transport : String)
    (live : processState = some .serving ∨ processState = some .starting) :
    (lookAgain g holder transport).Ends (Seen processState) := by
  refine .bind (fun _ => trivial) fun again => ?_
  split
  · exact live
  · exact trivial

/-- Only a starting or serving epoch is found alive. -/
theorem look_ends : (look at_ g buildId e processState).Ends (Seen processState) := by
  refine .bind (fun _ => trivial) fun holder => ?_
  split
  · exact trivial
  · split
    · refine .bind (fun _ => trivial) fun identity => ?_
      split
      · exact trivial
      · split
        · split
          · exact lookAgain_ends _ _ (.inl rfl)
          · exact lookAgain_ends _ _ (.inr rfl)
          · exact trivial
        · exact trivial
    · refine .bind (fun _ => trivial) fun ep => ?_
      split
      · split
        · exact lookAgain_ends _ _ (.inl ‹_›)
        · exact trivial
      · exact trivial

theorem Recorded.listedState {state : ProcessState} (rec : Recorded db g epochs)
    (listed : listedState epochs e = some state) : db.standing e = some (g, state) := by
  obtain ⟨ep, found, rfl⟩ := Option.map_eq_some_iff.mp listed
  have named : ep.generationEpoch = e := by simpa using List.find?_some found
  exact named ▸ (rec.inState (List.mem_of_find?_eq_some found)).2

/-- An adopted epoch: what has to hold of the others. -/
theorem controlled_adopted {cell : Cell} (rec : Recorded db g epochs)
    (standing : ∀ e', d.standing e' = if e' = e then some (g, .serving) else db.standing e')
    (pointer : d.pointer g = some e) (adopted : cell.epoch = some e) :
    Controlled d cell g ↔ ∀ ep ∈ epochs, ep.generationEpoch ≠ e → ep.processState = .dead := by
  constructor
  · intro controlled ep member other
    have stands : d.standing ep.generationEpoch = some (g, ep.processState) := by
      rw [standing, if_neg other, (rec.inState member).2]
    rcases controlled.epochs _ _ stands with dead | ⟨-, same⟩
    · exact dead
    · exact absurd (Option.some.inj (same.symm.trans adopted)) other
  · intro dead
    refine ⟨fun e' state stands => ?_, fun e' points => adopted.trans (pointer.symm.trans points)⟩
    rw [standing] at stands
    split at stands
    · rename_i same
      cases stands
      exact .inr ⟨rfl, same ▸ adopted⟩
    · rename_i other
      obtain ⟨ep, member, rfl, rfl⟩ := (rec.standing e' state).mp stands
      exact .inl (dead ep member other)

/-- No epoch adopted: what has to hold of those that are not put down. -/
theorem controlled_buried {cell : Cell} (rec : Recorded db g epochs) (buried : Buried g names db d)
    (points : db.pointer g = some e) (current : e ∈ names) (unadopted : cell.epoch = none) :
    Controlled d cell g ↔
      ∀ ep ∈ epochs, ep.generationEpoch ∉ names → ep.processState = .dead := by
  constructor
  · intro controlled ep member spared
    have stands : d.standing ep.generationEpoch = some (g, ep.processState) := by
      rw [buried.standing, if_neg spared, (rec.inState member).2]
    rcases controlled.epochs _ _ stands with dead | ⟨-, adopted⟩
    · exact dead
    · rw [unadopted] at adopted
      cases adopted
  · intro dead
    refine ⟨fun e' state stands => .inl ?_, fun e' still => ?_⟩
    · rw [buried.standing] at stands
      split at stands
      · cases stands
        rfl
      · obtain ⟨ep, member, rfl, rfl⟩ := (rec.standing e' state).mp stands
        exact dead ep member ‹_›
    · obtain ⟨still, spared⟩ := (buried.pointer e').mp still
      rw [points, Option.some.injEq] at still
      exact absurd (still ▸ current) spared

/-- The promotion of the current epoch, where it ends. -/
theorem promoteCurrent_controls {holder : Holder} {transport : String}
    {inspection : Registry.Inspection} (rec : Recorded w.db g epochs)
    (points : w.db.pointer g = some e) (named : e ≠ "") (unadopted : w.cell.epoch = none)
    (starting : w.db.standing e = some (g, .starting))
    (ran : (promoteCurrent at_ g buildId e holder transport).run c.answer w =
      (.ok inspection, w')) :
    inspection = .settled ∧ (Controlled w'.db w'.cell g ↔
      ∀ ep ∈ epochs, ep.generationEpoch ≠ e → ep.processState = .dead) := by
  have others : (∀ ep ∈ epochs, ep.generationEpoch ∉ [e] → ep.processState = .dead) ↔
      ∀ ep ∈ epochs, ep.generationEpoch ≠ e → ep.processState = .dead := by simp
  rw [promoteCurrent, Prog.run_bind, boot_attempt] at ran
  cases applied : (Call.casEpochServing g e (some e)
      (some (at_.incarnationMeta holder.incarnation))).apply w.db with
  | error x =>
    obtain ⟨n, rfl⟩ := casEpochServing_refused applied
    obtain ⟨d, done⟩ := reconcileEpochDead_ok_iff.mpr ⟨rec.named, named, _, starting⟩
    have buries : (Call.reconcileEpochDead g e).apply w.db = .ok d := done
    rw [applied] at ran
    dsimp only at ran
    rw [Prog.run_bind, boot_write, buries] at ran
    cases ran
    exact ⟨rfl, (controlled_buried rec (.one done) points (by simp) unadopted).trans others⟩
  | ok d =>
    obtain ⟨standing, pointer⟩ := casEpochServing_standing applied
    have now : d.pointer g = some e := (pointer g).trans (if_pos rfl)
    rw [applied] at ran
    simp only [pure, Bool.true_eq_false, if_false] at ran
    rw [Prog.run_bind, run_outside only_liveLockHolder] at ran
    generalize (liveLockHolder g).run c.alone _ = answered at ran
    obtain ⟨x | again, n⟩ := answered
    · cases ran
    · dsimp only at ran
      by_cases held : stillHeld again holder.incarnation = false
      · -- replaced after the promotion: the epoch is put down again
        obtain ⟨d', done⟩ := reconcileEpochDead_ok_iff.mpr
          ⟨rec.named, named, _, (standing e).trans (if_pos rfl)⟩
        have buries : (Call.reconcileEpochDead g e).apply d = .ok d' := done
        have buried : Buried g [e] w.db d' := by
          have last := Buried.one done
          refine ⟨fun e' => ?_, fun e' => ?_⟩
          · rw [last.standing, standing]
            by_cases same : e' = e <;> simp [same]
          · rw [last.pointer, now, points]
        rw [if_pos held, Prog.run_bind, boot_write] at ran
        dsimp only at ran
        rw [buries] at ran
        cases ran
        exact ⟨rfl, (controlled_buried rec buried points (by simp) unadopted).trans others⟩
      · rw [if_neg held] at ran
        cases ran
        exact ⟨rfl, controlled_adopted rec standing now rfl⟩

/-- The end of an inspection that has confirmed nothing. -/
def buryPointed (gid currentEpoch : String) (epochs : List EpochRecord) : GenRoutine Unit := do
  if currentEpoch ≠ "" then write (.reconcileEpochDead gid currentEpoch)
  let _ ← Prog.visit (Registry.buryOther gid currentEpoch) epochs
  pure ()

theorem buryPointed_controls (rec : Recorded w.db g epochs) (points : w.db.pointer g = some e)
    (named : e ≠ "") (unadopted : w.cell.epoch = none)
    (ran : (buryPointed g e epochs).run c.answer w = (.ok (), w')) :
    Controlled w'.db w'.cell g ↔
      ∀ ep ∈ epochs, ep.generationEpoch ≠ e → ep.processState ≠ .serving := by
  rw [buryPointed, if_pos named, Prog.run_bind, boot_write] at ran
  cases applied : (Call.reconcileEpochDead g e).apply w.db with
  | error x =>
    rw [applied] at ran
    cases ran
  | ok d =>
    obtain ⟨d', ranRest, buried⟩ := (buryOther_buries (c := c) e rec.named).run
      (w := { w with db := d }) (fun ep member => (rec.inState member).hasRow) (.one applied)
    rw [applied] at ran
    dsimp only at ran
    rw [Prog.run_bind, ranRest] at ran
    cases ran
    refine (controlled_buried rec buried points (by simp) unadopted).trans ?_
    refine forall₂_congr fun ep member => ?_
    have named : ep.generationEpoch ∉ [e] ++ (epochs.filter fun ep =>
        ep.generationEpoch ≠ e && ep.processState = .starting).map (·.generationEpoch) ↔
        ep.generationEpoch ≠ e ∧ ep.processState ≠ .starting := by
      simp only [List.singleton_append, List.mem_cons, List.mem_map, List.mem_filter, not_or]
      refine and_congr_right fun other => ⟨fun absent starting => absent ⟨ep, ?_, rfl⟩, ?_⟩
      · simp [member, other, starting]
      · rintro state ⟨twin, ⟨there, picked⟩, same⟩
        -- the rows of one epoch agree
        have stands := (rec.inState there).2
        rw [same, (rec.inState member).2, Option.some.injEq, Prod.mk.injEq] at stands
        simp only [Bool.and_eq_true, decide_eq_true_eq] at picked
        exact state (stands.2.trans picked.2)
    rw [named, and_imp]
    refine imp_congr_right fun other => ?_
    cases ep.processState <;> simp

/-- A generation whose pointer names an epoch. -/
theorem reconcilePointed_controls (rec : Recorded w.db g epochs) (points : w.db.pointer g = some e)
    (named : e ≠ "") (fresh : w.cell.active = none)
    (ran : (Registry.reconcilePointed at_ g buildId e epochs).run c.answer w = (.ok (), w')) :
    Controlled w'.db w'.cell g ↔
      ∀ seen, ((look at_ g buildId e (listedState epochs e)).run c.alone w.asked).1 = .ok seen →
        seen.Suffices e epochs := by
  have unadopted : w.cell.epoch = none := by rw [Cell.epoch, fresh, Option.map_none]
  have saw : Seen (listedState epochs e)
      ((look at_ g buildId e (listedState epochs e)).run c.alone w.asked).1 := look_ends.run w.asked
  obtain ⟨rest, composed, settled, unconfirmed⟩ : ∃ rest : Registry.Inspection → GenRoutine Unit,
      Registry.reconcilePointed at_ g buildId e epochs =
          Registry.inspectCurrent at_ g buildId e (listedState epochs e) >>= rest ∧
        rest .settled = pure () ∧ rest .unconfirmed = buryPointed g e epochs := ⟨_, rfl, rfl, rfl⟩
  rw [composed, inspectCurrent_eq, Prog.run_bind, Prog.run_bind, run_outside only_look] at ran
  generalize (look at_ g buildId e (listedState epochs e)).run c.alone w.asked = looked at saw ran ⊢
  obtain ⟨x | seen, n⟩ := looked
  · cases ran
  simp only [Except.ok.injEq, forall_eq']
  cases seen with
  | replaced =>
    have ran : (rest .settled).run c.answer _ = (.ok (), w') := ran
    rw [settled] at ran
    cases ran
    refine iff_of_false (fun controlled => ?_) id
    have adopted := controlled.pointer e points
    rw [unadopted] at adopted
    cases adopted
  | unconfirmed =>
    have ran : (rest .unconfirmed).run c.answer _ = (.ok (), w') := ran
    rw [unconfirmed] at ran
    exact buryPointed_controls (w := { w with asked := n }) rec points named unadopted ran
  | alive holder transport =>
    by_cases starting : listedState epochs e = some .starting
    · simp only [settle, if_pos starting] at ran
      generalize ranPromote : (promoteCurrent at_ g buildId e holder transport).run c.answer
        { w with asked := n } = ended at ran
      obtain ⟨x | inspection, w₁⟩ := ended
      · cases ran
      · obtain ⟨rfl, iff⟩ := promoteCurrent_controls (w := { w with asked := n }) rec points named
          unadopted (rec.listedState starting) ranPromote
        have ran : (rest .settled).run c.answer w₁ = (.ok (), w') := ran
        rw [settled] at ran
        cases ran
        exact iff
    · have serving := rec.listedState (saw.resolve_right starting)
      simp only [settle, if_neg starting] at ran
      have ran : (rest .settled).run c.answer _ = (.ok (), w') := ran
      rw [settled] at ran
      cases ran
      refine controlled_adopted rec (fun e' => ?_) points rfl
      split
      · rename_i same
        exact same ▸ serving
      · rfl

/-! ### The whole reconcile -/

theorem recorded_of_listed (shaped : EpochsShaped db) (one : db.OneServing)
    (there : db.findGeneration g ≠ none) (listed : db.listEpochsStrict g = .ok epochs) :
    Recorded db g epochs := by
  have strict := listed
  simp only [Db.listEpochsStrict, requireText, bind_ok, require_ok, demand_ok, exists_const] at strict
  obtain ⟨named, decoded⟩ := strict
  refine ⟨named, there, fun ep member => ?_,
    listing_distinct (listEpochs_ok.mpr ⟨named, filterMap_of_mapM decoded⟩), fun e state => ?_, one⟩
  · obtain ⟨row, held, -, read⟩ := row_of_listed listed member
    exact (decode_eq_some read).1 ▸ (shaped row held).1
  · rw [standing_eq_some]
    constructor
    · rintro ⟨row, found, owned, here⟩
      have held := mem_epochRows.mpr ⟨Table.mem_of_find? found, owned⟩
      obtain ⟨ep, member, read⟩ := shown_of_mapM decoded held
      obtain ⟨named, -, state, -⟩ := decode_eq_some read
      exact ⟨ep, member, named.trans (Db.generationEpoch_of_findEpoch found), state.trans here⟩
    · rintro ⟨ep, member, named, here⟩
      obtain ⟨row, held, owned, read⟩ := row_of_listed listed member
      obtain ⟨named', -, state, -⟩ := decode_eq_some read
      exact ⟨row, (named'.symm.trans named) ▸ Table.find?_of_mem held, owned, state.symm.trans here⟩

theorem readable_of_listed {gens : List GenerationRow} (listed : db.listGenerations = .ok gens)
    {row : GenerationRow} (member : row ∈ gens) :
    row.generationId ≠ "" ∧ row.currentEpoch ≠ some "" := by
  have held := (mem_listGenerations listed row).mp member
  simp only [Db.listGenerations, bind_ok, require_ok, exists_const] at listed
  have readable := listed.1 row held
  simp only [GenerationRow.readable, Bool.and_eq_true, decide_eq_true_eq] at readable
  exact ⟨readable.1.1.1, readable.1.2⟩

/-- The inspection of the active generation, once its epochs are read. -/
def inspectRead (at_ : Deployment) (gen : GenerationRow) (epochs : List EpochRecord) :
    GenRoutine Unit :=
  match gen.currentEpoch with
  | none => Registry.reconcileNull at_ gen.generationId gen.buildId epochs
  | some currentEpoch =>
    Registry.reconcilePointed at_ gen.generationId gen.buildId currentEpoch epochs

/-- An inspection that finishes has read the epochs, and changed nothing up to there. -/
theorem reconcileActive_reads {gen : GenerationRow}
    (ran : (Registry.reconcileActive at_ gen).run c.answer w = (.ok (), w')) :
    ∃ epochs, w.db.listEpochsStrict gen.generationId = .ok epochs ∧
      (inspectRead at_ gen epochs).run c.answer
        { w with cell := { w.cell with generationId := some gen.generationId } } = (.ok (), w') := by
  let w₀ : Boot := { w with cell := { w.cell with generationId := some gen.generationId } }
  have composed : Registry.reconcileActive at_ gen = remember gen.generationId >>= fun _ =>
      supervise gen.generationId >>= fun _ =>
        (ask (.listEpochsStrict gen.generationId)).rescue (fun _ => refused .generationUnavailable
          "failed to read epoch list during re-adoption; store may be corrupted") >>=
          inspectRead at_ gen := rfl
  have remembered : (remember gen.generationId).run c.answer w = (.ok (), w₀) := rfl
  rw [composed, Prog.run_bind, remembered] at ran
  dsimp only at ran
  by_cases valid : validGenerationId gen.generationId = true
  · have supervised : (supervise gen.generationId).run c.answer w₀ = (.ok (), w₀) := by
      rw [supervise, if_pos valid]
      rfl
    have asked : (ask (.listEpochsStrict gen.generationId)).run c.answer w₀ =
        (w.db.listEpochsStrict gen.generationId, w₀) := rfl
    rw [Prog.run_bind, supervised] at ran
    dsimp only at ran
    rw [Prog.run_bind, Prog.run_rescue, asked] at ran
    cases listed : w.db.listEpochsStrict gen.generationId with
    | error x =>
      rw [listed] at ran
      cases ran
    | ok epochs =>
      rw [listed] at ran
      exact ⟨epochs, rfl, ran⟩
  · rw [Prog.run_bind, supervise, if_neg valid] at ran
    cases ran

theorem inspectRead_controls {gen : GenerationRow} (rec : Recorded w.db gen.generationId epochs)
    (points : w.db.pointer gen.generationId = gen.currentEpoch) (named : gen.currentEpoch ≠ some "")
    (fresh : w.cell.active = none)
    (ran : (inspectRead at_ gen epochs).run c.answer w = (.ok (), w')) :
    Controlled w'.db w'.cell gen.generationId ↔ c.Suffices at_ gen epochs w.asked := by
  unfold inspectRead at ran
  unfold Replies.Suffices
  cases pointer : gen.currentEpoch with
  | none =>
    rw [pointer] at ran points
    exact reconcileNull_controls rec points fresh ran
  | some currentEpoch =>
    rw [pointer] at ran points
    exact reconcilePointed_controls rec points (fun empty => named (empty ▸ pointer)) fresh ran

/-- A reconcile that finishes leaves every epoch of the active generation dead but the adopted one,
in exactly the cases that `Reconciles` describes. -/
theorem eagerReconcile_controls_iff (at_ : Deployment) (c : Replies) (calls : List Call) (w' : Boot)
    (finished : (Registry.eagerReconcile at_).run c.answer
      { db := machine.after {} calls } = (.ok (), w')) :
    (∀ g, (machine.after {} calls).Active g → Controlled w'.db w'.cell g) ↔
      c.Reconciles at_ (machine.after {} calls) := by
  have shaped := epochsShaped_after calls
  have one := oneServing_after calls
  generalize machine.after {} calls = db at finished shaped one ⊢
  obtain ⟨rest, composed, alone, several⟩ : ∃ rest : List GenerationRow → GenRoutine Unit,
      Registry.eagerReconcile at_ =
          (listGenerations .readopt).rescue (fun _ => refused .generationUnavailable
            "failed to read generation list during re-adoption; store may be corrupted") >>= rest ∧
        (∀ gens gen, Registry.activeRows gens = [gen] →
          rest gens = Registry.reapOrphans gens >>= fun _ => Registry.reconcileActive at_ gen) ∧
        ∀ gens first second others, Registry.activeRows gens = first :: second :: others →
          ∃ message, rest gens = refused .idempotencyConflict message := by
    refine ⟨_, rfl, fun gens gen rows => ?_, fun gens first second others rows => ?_⟩
    · rw [rows]
    · rw [rows]
      exact ⟨_, rfl⟩
  rw [composed, Prog.run_bind, Prog.run_rescue, listGenerations, Prog.run_perform] at finished
  have answered : c.answer (.listGenerations .readopt) { db := db } =
    (db.listGenerations, { db := db }) := rfl
  rw [answered] at finished
  cases listed : db.listGenerations with
  | error x =>
    rw [listed] at finished
    cases finished
  | ok gens =>
    rw [listed] at finished
    dsimp only [Prog.run_done] at finished
    have active : ∀ g, db.Active g ↔ ∃ row ∈ Registry.activeRows gens, row.generationId = g := by
      intro g
      rw [active_iff_listed listed]
      simp only [Registry.activeRows, List.mem_filter, decide_eq_true_eq]
      constructor
      · rintro ⟨row, member, named, state⟩
        exact ⟨row, ⟨member, state⟩, named⟩
      · rintro ⟨row, ⟨member, state⟩, named⟩
        exact ⟨row, member, named, state⟩
    rcases rows : Registry.activeRows gens with _ | ⟨gen, _ | ⟨second, others⟩⟩
    · refine iff_of_true (fun g isActive => ?_) fun gens' gen epochs listed' rows' => ?_
      · obtain ⟨row, member, -⟩ := (active g).mp isActive
        rw [rows] at member
        cases member
      · rw [listed, Except.ok.injEq] at listed'
        subst listed'
        rw [rows] at rows'
        cases rows'
    · have member : gen ∈ gens := List.mem_of_mem_filter (rows ▸ List.mem_singleton_self gen)
      have found := found_of_listed listed member
      have readable := readable_of_listed listed member
      rw [alone gens gen rows, Prog.run_bind, run_outside only_reapOrphans] at finished
      generalize reaped : (Registry.reapOrphans gens).run c.alone _ = reaping at finished
      obtain ⟨x | _, n⟩ := reaping
      · cases finished
      · obtain ⟨epochs, epochsListed, inspected⟩ := reconcileActive_reads finished
        have only : (∀ g, db.Active g → Controlled w'.db w'.cell g) ↔
            Controlled w'.db w'.cell gen.generationId := by
          simp only [active, rows, List.mem_singleton, exists_eq_left, forall_eq']
        have controls := inspectRead_controls
          (w := { db := db, cell := { generationId := some gen.generationId }, asked := n })
          (recorded_of_listed shaped one (by simp [found]) epochsListed)
          (pointer_of_findGeneration found) readable.2 rfl inspected
        rw [only, controls]
        have here : ((Registry.reapOrphans gens).run c.alone 0).2 = n := congrArg Prod.snd reaped
        constructor
        · intro enough gens' gen' epochs' listed' rows' epochsListed'
          rw [listed, Except.ok.injEq] at listed'
          subst listed'
          rw [rows, List.cons.injEq] at rows'
          obtain ⟨rfl, -⟩ := rows'
          rw [epochsListed, Except.ok.injEq] at epochsListed'
          subst epochsListed'
          exact here ▸ enough
        · intro reconciles
          exact here ▸ reconciles gens gen epochs listed rows epochsListed
    · obtain ⟨message, refuses⟩ := several gens gen second others rows
      rw [refuses] at finished
      cases finished

/-! ### An epoch left starting -/

/-- A generation that serves, and the epoch of an earlier spawn that never got anywhere. -/
def leftoverEpoch : List Call :=
  [.createGeneration sampleGeneration (some "build-1") .active none (.finite 1),
    .insertEpoch firstEpoch sampleGeneration none (.finite 1),
    .casEpochServing sampleGeneration firstEpoch none none,
    .insertEpoch secondEpoch sampleGeneration none (.finite 2)]

/-- The daemon behind the first epoch is alive and well. -/
def livingDaemon : Replies := fun _ e =>
  match e with
  | .listGenerations _ => .ok []
  | .ask _ => .error .valueError
  | .write _ | .lockOperator | .runtimeActivate _ | .ensureDirs _ => .ok ()
  | .newGenerationId => secondEpoch
  | .time => .finite 3
  | .lockRegistry | .unlockRegistry | .unlockOperator | .remember _ | .refresh .. | .install ..
  | .sleep => ()
  | .readCell => {}
  | .generationDirs => some [sampleGeneration]
  | .isInstalled _ | .checkHealth .. | .checkHealthStrict .. | .reapHolder .. => .ok true
  | .runtimeActive | .endpoint .. => .ok none
  | .ensureRunning .. => .ok (none, "/g.sock")
  | .liveLockHolder _ => .ok (some ⟨⟨11, some "fp"⟩, some "/g.sock"⟩)
  | .healthIdentity .. => .ok (some ⟨.text sampleGeneration, .text firstEpoch, .text "build-1"⟩)

/-- The start of the router over that store. -/
def leftoverStart : Except Raised Unit × Boot :=
  (Registry.eagerReconcile sampleDeployment).run livingDaemon.answer
    { db := machine.after {} leftoverEpoch }

theorem finishes_of_isOk {ended : Except Raised Unit × Boot} (ok : ended.1.isOk = true) :
    ended = (.ok (), ended.2) := by
  obtain ⟨_ | _, w⟩ := ended
  · cases ok
  · rfl

theorem eagerReconcile_controls_iff_leftover :
    (∀ g, (machine.after {} leftoverEpoch).Active g →
      Controlled leftoverStart.2.db leftoverStart.2.cell g) ↔
      livingDaemon.Reconciles sampleDeployment (machine.after {} leftoverEpoch) :=
  eagerReconcile_controls_iff sampleDeployment livingDaemon leftoverEpoch leftoverStart.2
    (finishes_of_isOk (by decide +kernel))

/-- The reconcile finishes with the first epoch adopted and the second left as it was. -/
theorem eagerReconcile_leaves_leftover :
    leftoverStart = (.ok (), leftoverStart.2) ∧
      ¬ ∀ g, (machine.after {} leftoverEpoch).Active g →
        Controlled leftoverStart.2.db leftoverStart.2.cell g := by
  refine ⟨finishes_of_isOk (by decide +kernel), fun controls => ?_⟩
  have active : (machine.after {} leftoverEpoch).Active sampleGeneration := by decide +kernel
  have left : leftoverStart.2.db.standing secondEpoch = some (sampleGeneration, .starting) := by
    decide +kernel
  rcases (controls _ active).epochs _ _ left with dead | ⟨serving, -⟩
  · cases dead
  · cases serving

end Nelix.Router
