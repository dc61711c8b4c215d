import Nelix.Router.Registry
import Nelix.Store.Standing

/-!
# The eager reconcile

What the registry makes of the store it finds when the router starts, whatever the recorded
daemons answer: what counts as under control, what the probing has to show for it, and the repair
of a generation whose pointer is gone.

## Main results

`reconcileNull_controls`: the repair of a pointer leaves every epoch dead but the adopted one unless
a holder changes while it is probed.
-/
namespace Nelix.Router

open Contracts Core Store GenRoutine

/-! ### The router's start -/

/-- What everything outside the router answers, one question after another. -/
def Replies := ℕ → (e : GenEffect) → e.Answer

/-- The store and the registry's cell while the router starts. -/
structure Boot where
  db : Db
  cell : Cell := {}
  asked : ℕ := 0

/-- The store answers as it is; the rest is asked outside. -/
def Replies.answer (c : Replies) (e : GenEffect) (w : Boot) : e.Answer × Boot :=
  match e with
  | .listGenerations _ => (w.db.listGenerations, w)
  | .ask query => (w.db.answer query, w)
  | .write call =>
    match call.apply w.db with
    | .ok db' => (.ok (), { w with db := db' })
    | .error raised => (.error raised, w)
  | .readCell => (w.cell, w)
  | .remember g => ((), { w with cell := { w.cell with generationId := some g } })
  | .refresh transport incarnation =>
    ((), { w with cell := { w.cell with active := w.cell.active.map fun a =>
      { a with transport := transport, incarnation := incarnation } } })
  | .install adopted bump =>
    ((), { w with cell := { w.cell with
      active := some adopted
      topologyRevision := w.cell.topologyRevision + if bump then 1 else 0 } })
  | .lockRegistry | .unlockRegistry | .unlockOperator => ((), w)
  | .lockOperator => (.ok (), w)
  | e => (c w.asked e, { w with asked := w.asked + 1 })

/-- The answers from outside alone. -/
def Replies.alone (c : Replies) (e : GenEffect) (n : ℕ) : e.Answer × ℕ := (c n e, n + 1)

/-- The epoch that the registry has adopted. -/
def Cell.epoch (cell : Cell) : Option String := cell.active.map Adopted.epoch

/-- Every epoch of the generation is dead or the adopted, serving one, and the pointer is cleared or
names the adopted one. -/
structure Controlled (db : Db) (cell : Cell) (g : String) : Prop where
  epochs : ∀ e state, db.standing e = some (g, state) →
    state = .dead ∨ (state = .serving ∧ cell.epoch = some e)
  pointer : ∀ e, db.pointer g = some e → cell.epoch = some e

/-! ### What the probing shows -/

/-- What the inspection of the current epoch's daemon shows. -/
inductive Look
  | unconfirmed
  | replaced
  | alive (holder : Holder) (transport : String)

/-- The holder is read again before anything is done about it. -/
def lookAgain (gid : String) (holder : Holder) (transport : String) : GenRoutine Look := do
  let reRead ← liveLockHolder gid
  if stillHeld reRead holder.incarnation then pure (.alive holder transport) else pure .replaced

/-- The part of the inspection that only asks. -/
def look (at_ : Deployment) (gid : String) (buildId : Option String) (currentEpoch : String)
    (processState : Option ProcessState) : GenRoutine Look := do
  match ← liveLockHolder gid with
  | none => pure .unconfirmed
  | some holder =>
    match holder.transport with
    | some transport => do
      let attempts := if processState = some .starting then 1 + at_.healthRetries else 1
      match ← Registry.identityOf gid transport attempts with
      | none => pure .unconfirmed
      | some identity =>
        if identity.isExactly gid currentEpoch buildId then
          match processState with
          | some .serving | some .starting => lookAgain gid holder transport
          | _ => pure .unconfirmed
        else pure .unconfirmed
    | none => do
      match ← endpoint gid buildId currentEpoch with
      | some ep =>
        if processState = some .serving then lookAgain gid holder ep else pure .unconfirmed
      | none => pure .unconfirmed

/-- Probes one epoch; `stops` where a confirmed one ends the search. -/
def scanStep (stops : Bool) (gid : String) (buildId : Option String) (se : EpochRecord) :
    GenRoutine (Option Registry.Repair) := do
  match ← Registry.probe gid buildId se.generationEpoch with
  | .absent => pure none
  | .changed => pure (some .aborted)
  | .confirmed _ _ => if stops then pure (some .adopted) else pure none

/-- The part of the repair of a NULL pointer that only asks. -/
def scan (stops : Bool) (gid : String) (buildId : Option String) (epochs : List EpochRecord) :
    GenRoutine (Option Registry.Repair) := Prog.visit (scanStep stops gid buildId) epochs

def servingOf (epochs : List EpochRecord) : List EpochRecord :=
  epochs.filter (·.processState = .serving)

def startingOf (epochs : List EpochRecord) : List EpochRecord :=
  epochs.filter (·.processState = .starting)

/-- No holder changes while the epochs of a generation without a pointer are probed. -/
def Replies.Unchanged (c : Replies) (gid : String) (buildId : Option String)
    (epochs : List EpochRecord) (n : ℕ) : Prop :=
  let first := (scan true gid buildId (servingOf epochs)).run c.alone n
  let second :=
    (scan (servingOf epochs).isEmpty gid buildId (startingOf epochs)).run c.alone first.2
  first.1 ≠ .ok (some .aborted) ∧ second.1 ≠ .ok (some .aborted)

/-- The process state that the listing gives the epoch. -/
def listedState (epochs : List EpochRecord) (currentEpoch : String) : Option ProcessState :=
  (epochs.find? (·.generationEpoch = currentEpoch)).map (·.processState)

/-- What the probing has to show of a generation whose pointer names an epoch, for the rest of its
epochs to be dealt with. -/
def Look.Suffices (currentEpoch : String) (epochs : List EpochRecord) : Look → Prop
  | .replaced => False
  | .unconfirmed =>
    ∀ ep ∈ epochs, ep.generationEpoch ≠ currentEpoch → ep.processState ≠ .serving
  | .alive _ _ => ∀ ep ∈ epochs, ep.generationEpoch ≠ currentEpoch → ep.processState = .dead

/-- What has to be seen of the active generation. -/
def Replies.Suffices (at_ : Deployment) (c : Replies) (gen : GenerationRow)
    (epochs : List EpochRecord) (n : ℕ) : Prop :=
  match gen.currentEpoch with
  | none => c.Unchanged gen.generationId gen.buildId epochs n
  | some currentEpoch =>
    ∀ seen, ((look at_ gen.generationId gen.buildId currentEpoch
        (listedState epochs currentEpoch)).run c.alone n).1 = .ok seen →
      seen.Suffices currentEpoch epochs

/-- When a reconcile that finishes has every epoch of the active generation under control. -/
def Replies.Reconciles (at_ : Deployment) (c : Replies) (db : Db) : Prop :=
  ∀ gens gen epochs, db.listGenerations = .ok gens → Registry.activeRows gens = [gen] →
    db.listEpochsStrict gen.generationId = .ok epochs →
      c.Suffices at_ gen epochs ((Registry.reapOrphans gens).run c.alone 0).2

/-! ### Programs that only ask -/

def Outside (e : GenEffect) : Prop := e.outside = true

variable {c : Replies} {w w' : Boot} {g e : String} {buildId : Option String} {α : Type}

theorem answer_outside {e : GenEffect} (out : Outside e) (w : Boot) :
    c.answer e w = (c w.asked e, { w with asked := w.asked + 1 }) := by
  cases e <;> first | rfl | cases out

/-- A program that only asks is answered from outside alone. -/
theorem run_outside {p : GenRoutine α} (only : p.Only Outside) (w : Boot) :
    p.run c.answer w = ((p.run c.alone w.asked).1, { w with asked := (p.run c.alone w.asked).2 }) := by
  induction p generalizing w with
  | done r => rfl
  | perform e next ih =>
    rw [Prog.run_perform, answer_outside only.1, ih _ (only.2 _)]
    rfl

theorem only_liveLockHolder : (liveLockHolder g).Only Outside := .perform rfl fun _ => .done

theorem only_probe : (Registry.probe g buildId e).Only Outside := by
  refine .bind only_liveLockHolder fun holder => ?_
  split
  · exact .pure
  · refine .bind ?_ fun transport => ?_
    · unfold Registry.transportOf
      split
      · exact .pure
      · exact .perform rfl fun _ => .done
    · split
      · exact .pure
      · refine .bind (.perform rfl fun _ => .done) fun identity => ?_
        split
        · exact .pure
        · split
          · refine .bind only_liveLockHolder fun again => ?_
            split <;> exact .pure
          · exact .pure

theorem only_identityOf {transport : String} (attempts : ℕ) :
    (Registry.identityOf g transport attempts).Only Outside := by
  induction attempts with
  | zero => exact .pure
  | succ attempts ih =>
    have retry : (if attempts = 0 then pure none
        else do
          sleep
          Registry.identityOf g transport attempts : GenRoutine (Option Identity)).Only Outside := by
      split
      · exact .pure
      · exact .bind (.perform rfl fun _ => .done) fun _ => ih
    refine .bind (.perform rfl fun _ => .done) fun healthy => ?_
    split
    · refine .bind (.perform rfl fun _ => .done) fun identity => ?_
      split
      · exact .pure
      · exact retry
    · exact retry

theorem only_lookAgain {holder : Holder} {transport : String} :
    (lookAgain g holder transport).Only Outside := by
  refine .bind only_liveLockHolder fun again => ?_
  split <;> exact .pure

theorem only_look {at_ : Deployment} {processState : Option ProcessState} :
    (look at_ g buildId e processState).Only Outside := by
  refine .bind only_liveLockHolder fun holder => ?_
  split
  · exact .pure
  · split
    · refine .bind (only_identityOf _) fun identity => ?_
      split
      · exact .pure
      · split
        · split
          · exact only_lookAgain
          · exact only_lookAgain
          · exact .pure
        · exact .pure
    · refine .bind (.perform rfl fun _ => .done) fun ep => ?_
      split
      · split
        · exact only_lookAgain
        · exact .pure
      · exact .pure

theorem only_reapOrphans {gens : List GenerationRow} : (Registry.reapOrphans gens).Only Outside := by
  refine .bind (.perform rfl fun _ => .done) fun names => ?_
  split
  · exact .pure
  · refine .bind (.visit (fun name => ?_) _) fun _ => .pure
    unfold Registry.reapOrphan
    split
    · exact .pure
    · refine .rescue (.bind ?_ fun _ => .bind only_liveLockHolder fun holder => ?_) fun _ => .pure
      · unfold supervise
        split
        · exact .pure
        · exact .raise
      · split
        · exact .bind (.perform rfl fun _ => .done) fun _ => .pure
        · exact .pure

/-! ### Epochs put down -/

/-- These epochs of the generation are marked dead. -/
structure Buried (g : String) (names : List String) (db d : Db) : Prop where
  standing : ∀ e, d.standing e = if e ∈ names then some (g, .dead) else db.standing e
  pointer : ∀ e, d.pointer g = some e ↔ db.pointer g = some e ∧ e ∉ names

variable {db d d' : Db} {names names' : List String}

theorem Buried.none : Buried g [] db db := ⟨fun _ => by simp, fun _ => by simp⟩

theorem Buried.one (done : db.reconcileEpochDead g e = .ok d) : Buried g [e] db d := by
  obtain ⟨standing, pointer⟩ := reconcileEpochDead_standing done
  refine ⟨fun e' => by simp [standing e'], fun e' => ?_⟩
  rw [pointer g, List.mem_singleton]
  split
  · rename_i points
    simp only [reduceCtorEq, points.2, Option.some.injEq, false_iff, not_and, not_not]
    exact Eq.symm
  · rename_i apart
    simp only [true_and] at apart
    exact ⟨fun points => ⟨points, fun same => apart (same ▸ points)⟩, And.left⟩

theorem Buried.trans (first : Buried g names db d) (second : Buried g names' d d') :
    Buried g (names ++ names') db d' := by
  refine ⟨fun e => ?_, fun e => ?_⟩
  · rw [second.standing, first.standing]
    simp only [List.mem_append]
    by_cases late : e ∈ names'
    · simp [late]
    · simp [late]
  · rw [second.pointer, first.pointer, List.mem_append, not_or, and_assoc]

/-- An epoch of the generation that has a row can be marked dead, before and after others are. -/
theorem Buried.next (buried : Buried g names db d) (namedGen : g ≠ "") (named : e ≠ "")
    (owned : ∃ state, db.standing e = some (g, state)) :
    ∃ d', d.reconcileEpochDead g e = .ok d' := by
  refine reconcileEpochDead_ok_iff.mpr ⟨namedGen, named, ?_⟩
  rw [buried.standing]
  split
  · exact ⟨_, rfl⟩
  · exact owned

theorem boot_write (call : Call) (w : Boot) : (write call).run c.answer w =
    match call.apply w.db with
    | .ok db' => (.ok (), { w with db := db' })
    | .error raised => (.error raised, w) := by
  rw [write, Prog.run_perform, Replies.answer]
  cases call.apply w.db <;> rfl

/-- A write whose refusal is dealt with. -/
theorem boot_attempt (call : Call) (handler : GenRoutine Bool) (w : Boot) :
    (exceptNelix (do
      write call
      pure true) fun _ => handler).run c.answer w =
    match call.apply w.db with
    | .ok db' => (.ok true, { w with db := db' })
    | .error (.nelix _) => handler.run c.answer w
    | .error raised => (.error raised, w) := by
  rw [exceptNelix, Prog.run_rescue, Prog.run_bind, boot_write]
  rcases call.apply w.db with x | d
  · cases x <;> rfl
  · rfl

/-- An epoch with a row. -/
def HasRow (db : Db) (g : String) (ep : EpochRecord) : Prop :=
  ep.generationEpoch ≠ "" ∧ ∃ state, db.standing ep.generationEpoch = some (g, state)

/-- Puts down the epochs that `picks` names, one a step. -/
def Buries (c : Replies) (g : String) (db : Db) (picks : EpochRecord → Bool)
    (step : EpochRecord → GenRoutine (Option Unit)) : Prop :=
  ∀ ep names w, Buried g names db w.db → HasRow db g ep →
    ∃ d, (step ep).run c.answer w = (.ok none, { w with db := d }) ∧
      Buried g (names ++ if picks ep then [ep.generationEpoch] else []) db d

theorem Buries.run {picks : EpochRecord → Bool} {step : EpochRecord → GenRoutine (Option Unit)}
    (buries : Buries c g db picks step) {epochs : List EpochRecord}
    (rows : ∀ ep ∈ epochs, HasRow db g ep) (buried : Buried g names db w.db) :
    ∃ d, (Prog.visit step epochs).run c.answer w = (.ok none, { w with db := d }) ∧
      Buried g (names ++ (epochs.filter picks).map (·.generationEpoch)) db d := by
  induction epochs generalizing names w with
  | nil => exact ⟨w.db, rfl, by simpa using buried⟩
  | cons ep rest ih =>
    obtain ⟨d, ran, further⟩ := buries ep names w buried (rows ep (by simp))
    obtain ⟨d', ranRest, last⟩ := ih (w := { w with db := d })
      (fun other member => rows other (List.mem_cons_of_mem ep member)) further
    refine ⟨d', ?_, ?_⟩
    · rw [Prog.run_visit_cons, ran]
      exact ranRest
    · rw [List.filter_cons]
      split at last <;> rename_i picked <;> simpa [picked] using last

theorem bury_buries (namedGen : g ≠ "") : Buries c g db (fun _ => true) (Registry.bury g) := by
  intro ep names w buried owned
  obtain ⟨d, done⟩ := buried.next namedGen owned.1 owned.2
  refine ⟨d, ?_, buried.trans (.one done)⟩
  rw [Registry.bury, exceptNelix, Prog.run_rescue, Prog.run_bind, boot_write]
  have applied : (Call.reconcileEpochDead g ep.generationEpoch).apply w.db = .ok d := done
  rw [applied]
  rfl

/-- The epochs of a list are put down one after another. -/
theorem run_buryAll {epochs : List EpochRecord} (namedGen : g ≠ "")
    (owned : ∀ ep ∈ epochs, HasRow w.db g ep) :
    ∃ d, (Registry.buryAll g epochs).run c.answer w = (.ok (), { w with db := d }) ∧
      Buried g (epochs.map (·.generationEpoch)) w.db d := by
  obtain ⟨d, ran, buried⟩ := (bury_buries (c := c) namedGen).run owned .none
  refine ⟨d, ?_, by simpa using buried⟩
  rw [Registry.buryAll, Prog.run_bind, ran]
  rfl

theorem buryOther_buries (currentEpoch : String) (namedGen : g ≠ "") :
    Buries c g db (fun ep => ep.generationEpoch ≠ currentEpoch && ep.processState = .starting)
      (Registry.buryOther g currentEpoch) := by
  intro ep names w buried owned
  rw [Registry.buryOther]
  by_cases current : ep.generationEpoch = currentEpoch
  · exact ⟨w.db, by rw [if_pos current]; rfl, by simpa [current] using buried⟩
  · rw [if_neg current]
    by_cases starting : ep.processState = .starting
    · obtain ⟨d, done⟩ := buried.next namedGen owned.1 owned.2
      have applied : (Call.reconcileEpochDead g ep.generationEpoch).apply w.db = .ok d := done
      refine ⟨d, ?_, by simpa [current, starting] using buried.trans (.one done)⟩
      rw [if_pos starting, Prog.run_bind, boot_write, applied]
      rfl
    · exact ⟨w.db, by rw [if_neg starting]; rfl, by simpa [starting] using buried⟩

/-! ### The search for a live daemon -/

/-- How the search for a live daemon among some epochs ends. -/
inductive Searched (g : String) (items : List EpochRecord) (names : List String) (w : Boot) :
    Except Raised (Option Registry.Repair) → Boot → Prop
  | failed (x : Raised) (w' : Boot) : Searched g items names w (.error x) w'
  | passed {w' : Boot} (buried : Buried g names w.db w'.db) (same : w'.cell = w.cell) :
      Searched g items names w (.ok none) w'
  | aborted {ep : EpochRecord} {w' : Boot} (here : ep ∈ items)
      (buried : Buried g names w.db w'.db) (spared : ep.generationEpoch ∉ names)
      (same : w'.cell = w.cell) : Searched g items names w (.ok (some .aborted)) w'
  | adopted {ep : EpochRecord} {w' : Boot} (here : ep ∈ items)
      (standing : ∀ e, w'.db.standing e =
        if e = ep.generationEpoch then some (g, .serving) else w.db.standing e)
      (pointer : w'.db.pointer g = some ep.generationEpoch)
      (epoch : w'.cell.epoch = some ep.generationEpoch) :
      Searched g items names w (.ok (some .adopted)) w'

/-- An epoch of the generation in this state. -/
def InState (db : Db) (g : String) (state : ProcessState) (ep : EpochRecord) : Prop :=
  ep.generationEpoch ≠ "" ∧ db.standing ep.generationEpoch = some (g, state)

theorem InState.hasRow {state : ProcessState} {ep : EpochRecord} (here : InState db g state ep) :
    HasRow db g ep := ⟨here.1, state, here.2⟩

/-- The search so far has changed nothing, and what is left of it is left of the scan. -/
structure Untouched (c : Replies) (g : String) (buildId : Option String) (stops : Bool)
    (items : List EpochRecord) (w : Boot) (rest : List EpochRecord) (w' : Boot) : Prop where
  left : ∀ ep ∈ rest, ep ∈ items
  db : w'.db = w.db
  cell : w'.cell = w.cell
  scan : (scan stops g buildId rest).run c.alone w'.asked =
    (scan stops g buildId items).run c.alone w.asked

theorem Untouched.buried {stops : Bool} {items rest : List EpochRecord}
    (untouched : Untouched c g buildId stops items w rest w') : Buried g [] w.db w'.db :=
  untouched.db ▸ .none

/-- What is asked of one epoch. -/
theorem run_scan_cons {stops : Bool} {ep : EpochRecord} {rest : List EpochRecord} (n : ℕ) :
    (scan stops g buildId (ep :: rest)).run c.alone n =
      match (Registry.probe g buildId ep.generationEpoch).run c.alone n with
      | (.error x, n') => (.error x, n')
      | (.ok .absent, n') => (scan stops g buildId rest).run c.alone n'
      | (.ok .changed, n') => (.ok (some .aborted), n')
      | (.ok (.confirmed _ _), n') =>
        if stops then (.ok (some .adopted), n') else (scan stops g buildId rest).run c.alone n' := by
  rw [scan, Prog.run_visit_cons, scanStep, Prog.run_bind]
  rcases (Registry.probe g buildId ep.generationEpoch).run c.alone n with
    ⟨_ | _ | _ | _, n'⟩
  · rfl
  · rfl
  · rfl
  · cases stops <;> rfl

theorem repairServing_searched (buildId : Option String) {items : List EpochRecord} (namedGen : g ≠ "")
    (there : w.db.findGeneration g ≠ none) (serving : ∀ ep ∈ items, InState w.db g .serving ep) :
    Searched g items [] w ((Prog.visit (Registry.repairServing g buildId) items).run c.answer w).1
        ((Prog.visit (Registry.repairServing g buildId) items).run c.answer w).2 ∧
      (((Prog.visit (Registry.repairServing g buildId) items).run c.answer w).1,
        ((Prog.visit (Registry.repairServing g buildId) items).run c.answer w).2.asked) =
        (scan true g buildId items).run c.alone w.asked := by
  refine Prog.run_visit (Untouched c g buildId true items w)
    (fun r w' => Searched g items [] w r w' ∧
      (r, w'.asked) = (scan true g buildId items).run c.alone w.asked)
    (fun w' untouched => ?_) (fun ep rest w' untouched => ?_) ⟨fun _ => id, rfl, rfl, rfl⟩
  · exact ⟨.passed untouched.buried untouched.cell, untouched.scan⟩
  · have here := untouched.left ep (by simp)
    have scanned := untouched.scan
    rw [run_scan_cons] at scanned
    rw [Registry.repairServing, Prog.run_bind, run_outside only_probe]
    generalize (Registry.probe g buildId ep.generationEpoch).run c.alone w'.asked = probed
      at scanned ⊢
    obtain ⟨_ | _ | _ | ⟨incarnation, transport⟩, n⟩ := probed
    · exact ⟨.failed .., scanned⟩
    · exact ⟨fun other member => untouched.left other (List.mem_cons_of_mem ep member),
        untouched.db, untouched.cell, scanned⟩
    · exact ⟨.aborted here untouched.buried (by simp) untouched.cell, scanned⟩
    · obtain ⟨d, done⟩ := setCurrentEpoch_ok_iff.mpr
        ⟨namedGen, (serving ep here).1, there, _, (serving ep here).2⟩
      obtain ⟨standing, pointer⟩ := setCurrentEpoch_standing done
      have applied : (Call.setCurrentEpoch g ep.generationEpoch).apply w'.db = .ok d := by
        rw [untouched.db]
        exact done
      dsimp only
      rw [Prog.run_bind, boot_write, applied]
      refine ⟨.adopted here (fun e => ?_) ((pointer g).trans (if_pos rfl)) rfl, scanned⟩
      refine (standing e).trans ?_
      split
      · rename_i same
        exact same ▸ (serving ep here).2
      · rfl

/-- Without a serving epoch the first starting epoch with a live daemon is promoted. -/
theorem repairStarting_searched (at_ : Deployment) (buildId : Option String)
    {items : List EpochRecord} (namedGen : g ≠ "")
    (there : w.db.findGeneration g ≠ none) (bare : w.db.pointer g = none)
    (idle : ∀ e, w.db.standing e ≠ some (g, .serving))
    (starting : ∀ ep ∈ items, InState w.db g .starting ep) :
    Searched g items [] w ((Prog.visit (Registry.repairStarting at_ g buildId) items).run c.answer w).1
        ((Prog.visit (Registry.repairStarting at_ g buildId) items).run c.answer w).2 ∧
      (((Prog.visit (Registry.repairStarting at_ g buildId) items).run c.answer w).1,
        ((Prog.visit (Registry.repairStarting at_ g buildId) items).run c.answer w).2.asked) =
        (scan true g buildId items).run c.alone w.asked := by
  refine Prog.run_visit (Untouched c g buildId true items w)
    (fun r w' => Searched g items [] w r w' ∧
      (r, w'.asked) = (scan true g buildId items).run c.alone w.asked)
    (fun w' untouched => ?_) (fun ep rest w' untouched => ?_) ⟨fun _ => id, rfl, rfl, rfl⟩
  · exact ⟨.passed untouched.buried untouched.cell, untouched.scan⟩
  · have here := untouched.left ep (by simp)
    have scanned := untouched.scan
    rw [run_scan_cons] at scanned
    rw [Registry.repairStarting, Prog.run_bind, run_outside only_probe]
    generalize (Registry.probe g buildId ep.generationEpoch).run c.alone w'.asked = probed
      at scanned ⊢
    obtain ⟨_ | _ | _ | ⟨incarnation, transport⟩, n⟩ := probed
    · exact ⟨.failed .., scanned⟩
    · exact ⟨fun other member => untouched.left other (List.mem_cons_of_mem ep member),
        untouched.db, untouched.cell, scanned⟩
    · exact ⟨.aborted here untouched.buried (by simp) untouched.cell, scanned⟩
    · obtain ⟨d, done⟩ := (casEpochServing_ok_iff (at_.incarnationMeta_ne incarnation)).mpr
        ⟨namedGen, (starting ep here).1, there, bare, (starting ep here).2, idle⟩
      obtain ⟨standing, pointer⟩ := casEpochServing_standing done
      have applied : (Call.casEpochServing g ep.generationEpoch none
          (some (at_.incarnationMeta incarnation))).apply w'.db = .ok d := by
        rw [untouched.db]
        exact done
      dsimp only
      rw [Prog.run_bind, boot_attempt, applied]
      exact ⟨.adopted here standing ((pointer g).trans (if_pos rfl)) rfl, scanned⟩

/-- While an epoch serves, every starting epoch with a live daemon is put down. -/
structure Refusing (c : Replies) (g : String) (buildId : Option String)
    (items : List EpochRecord) (w : Boot) (rest : List EpochRecord) (w' : Boot) : Prop where
  left : ∀ ep ∈ rest, ep ∈ items
  buried : ∃ names, Buried g names w.db w'.db ∧
    (∀ e ∈ names, ∃ ep ∈ items, ep.generationEpoch = e) ∧ ∀ ep ∈ rest, ep.generationEpoch ∉ names
  distinct : (rest.map (·.generationEpoch)).Nodup
  cell : w'.cell = w.cell
  scan : (scan false g buildId rest).run c.alone w'.asked =
    (scan false g buildId items).run c.alone w.asked

theorem Refusing.spares {items rest : List EpochRecord} {ep : EpochRecord}
    (refusing : Refusing c g buildId items w (ep :: rest) w') :
    (rest.map (·.generationEpoch)).Nodup ∧
      ∀ other ∈ rest, other.generationEpoch ≠ ep.generationEpoch := by
  have distinct := refusing.distinct
  rw [List.map_cons, List.nodup_cons] at distinct
  exact ⟨distinct.2, fun other member same => distinct.1 (List.mem_map.mpr ⟨other, member, same⟩)⟩

theorem repairStarting_refused (at_ : Deployment) (buildId : Option String)
    {items : List EpochRecord} (namedGen : g ≠ "")
    (serves : w.db.standing e = some (g, .serving))
    (starting : ∀ ep ∈ items, InState w.db g .starting ep)
    (distinct : (items.map (·.generationEpoch)).Nodup) :
    (∃ names, (∀ e ∈ names, ∃ ep ∈ items, ep.generationEpoch = e) ∧
        Searched g items names w
          ((Prog.visit (Registry.repairStarting at_ g buildId) items).run c.answer w).1
          ((Prog.visit (Registry.repairStarting at_ g buildId) items).run c.answer w).2) ∧
      ((Prog.visit (Registry.repairStarting at_ g buildId) items).run c.answer w).1 ≠
        .ok (some .adopted) ∧
      (((Prog.visit (Registry.repairStarting at_ g buildId) items).run c.answer w).1,
        ((Prog.visit (Registry.repairStarting at_ g buildId) items).run c.answer w).2.asked) =
        (scan false g buildId items).run c.alone w.asked := by
  refine Prog.run_visit (Refusing c g buildId items w)
    (fun r w' => (∃ names, (∀ e ∈ names, ∃ ep ∈ items, ep.generationEpoch = e) ∧
        Searched g items names w r w') ∧ r ≠ .ok (some .adopted) ∧
      (r, w'.asked) = (scan false g buildId items).run c.alone w.asked)
    (fun w' refusing => ?_) (fun ep rest w' refusing => ?_)
    ⟨fun _ => id, ⟨[], .none, by simp, by simp⟩, distinct, rfl, rfl⟩
  · obtain ⟨names, buried, among, -⟩ := refusing.buried
    exact ⟨⟨names, among, .passed buried refusing.cell⟩, nofun, refusing.scan⟩
  · have here := refusing.left ep (by simp)
    obtain ⟨names, buried, among, spared⟩ := refusing.buried
    have scanned := refusing.scan
    rw [run_scan_cons] at scanned
    rw [Registry.repairStarting, Prog.run_bind, run_outside only_probe]
    generalize (Registry.probe g buildId ep.generationEpoch).run c.alone w'.asked = probed
      at scanned ⊢
    obtain ⟨_ | _ | _ | ⟨incarnation, transport⟩, n⟩ := probed
    · exact ⟨⟨names, among, .failed ..⟩, nofun, scanned⟩
    · exact ⟨fun other member => refusing.left other (List.mem_cons_of_mem ep member),
        ⟨names, buried, among, fun other member => spared other (List.mem_cons_of_mem ep member)⟩,
        refusing.spares.1, refusing.cell, scanned⟩
    · exact ⟨⟨names, among, .aborted here buried (spared ep (by simp)) refusing.cell⟩, nofun,
        scanned⟩
    · -- the epoch that serves is not among those put down, and stands in the way
      have still : w'.db.standing e = some (g, .serving) := by
        rw [buried.standing, if_neg, serves]
        intro member
        obtain ⟨other, there, rfl⟩ := among e member
        rw [(starting other there).2] at serves
        cases serves
      obtain ⟨n', refused⟩ : ∃ n', (Call.casEpochServing g ep.generationEpoch none
          (some (at_.incarnationMeta incarnation))).apply w'.db = .error (.nelix n') := by
        cases done : (Call.casEpochServing g ep.generationEpoch none
          (some (at_.incarnationMeta incarnation))).apply w'.db with
        | ok d =>
          exact absurd still (((casEpochServing_ok_iff (at_.incarnationMeta_ne incarnation)).mp
            ⟨d, done⟩).2.2.2.2.2 e)
        | error x =>
          obtain ⟨n', rfl⟩ := casEpochServing_refused done
          exact ⟨n', rfl⟩
      obtain ⟨d, done⟩ := buried.next namedGen (starting ep here).1 ⟨_, (starting ep here).2⟩
      have applied : (Call.reconcileEpochDead g ep.generationEpoch).apply w'.db = .ok d := done
      dsimp only
      rw [Prog.run_bind, boot_attempt, refused]
      dsimp only
      rw [Prog.run_bind, boot_write, applied]
      refine ⟨fun other member => refusing.left other (List.mem_cons_of_mem ep member),
        ⟨names ++ [ep.generationEpoch], buried.trans (.one done), fun e member => ?_,
          fun other member => ?_⟩, refusing.spares.1, refusing.cell, scanned⟩
      · rcases List.mem_append.mp member with earlier | now
        · exact among e earlier
        · exact ⟨ep, here, (List.mem_singleton.mp now).symm⟩
      · rw [List.mem_append, List.mem_singleton, not_or]
        exact ⟨spared other (List.mem_cons_of_mem ep member), refusing.spares.2 other member⟩

/-! ### The repair of a pointer -/

/-- What the strict listing of a generation's epochs tells about the store. -/
structure Recorded (db : Db) (g : String) (epochs : List EpochRecord) : Prop where
  named : g ≠ ""
  there : db.findGeneration g ≠ none
  epochsNamed : ∀ ep ∈ epochs, ep.generationEpoch ≠ ""
  distinct : (epochs.map (·.generationEpoch)).Nodup
  standing : ∀ e state, db.standing e = some (g, state) ↔
    ∃ ep ∈ epochs, ep.generationEpoch = e ∧ ep.processState = state
  one : db.OneServing

variable {epochs : List EpochRecord}

theorem Recorded.inState (rec : Recorded db g epochs) {ep : EpochRecord} (member : ep ∈ epochs) :
    InState db g ep.processState ep :=
  ⟨rec.epochsNamed ep member, (rec.standing _ _).mpr ⟨ep, member, rfl, rfl⟩⟩

theorem mem_servingOf {ep : EpochRecord} :
    ep ∈ servingOf epochs ↔ ep ∈ epochs ∧ ep.processState = .serving := by
  simp [servingOf]

theorem mem_startingOf {ep : EpochRecord} :
    ep ∈ startingOf epochs ↔ ep ∈ epochs ∧ ep.processState = .starting := by
  simp [startingOf]

theorem Recorded.serving (rec : Recorded db g epochs) :
    ∀ ep ∈ servingOf epochs, InState db g .serving ep := by
  intro ep member
  obtain ⟨member, serving⟩ := mem_servingOf.mp member
  exact serving ▸ rec.inState member

theorem Recorded.starting (rec : Recorded db g epochs) :
    ∀ ep ∈ startingOf epochs, InState db g .starting ep := by
  intro ep member
  obtain ⟨member, starting⟩ := mem_startingOf.mp member
  exact starting ▸ rec.inState member

/-- The end of the repair: what is left is put down. -/
def sweep (g : String) (epochs : List EpochRecord) : GenRoutine Unit := do
  match (← readCell).active with
  | some adopted =>
    Registry.buryAll g ((startingOf epochs).filter (·.generationEpoch ≠ adopted.epoch))
  | none => Registry.buryAll g (servingOf epochs ++ startingOf epochs)

/-- What the searches leave: only what the sweep will put down is neither dead nor adopted. -/
structure Sorted (g : String) (epochs : List EpochRecord) (w : Boot) : Prop where
  known : ∀ e state, w.db.standing e = some (g, state) →
    state = .dead ∨ (state = .serving ∧ w.cell.epoch = some e) ∨
      (w.cell.epoch ≠ some e ∧ ∃ ep ∈ epochs, ep.generationEpoch = e ∧
        (ep.processState = .starting ∨ ep.processState = .serving ∧ w.cell.epoch = none))
  rows : ∀ ep ∈ epochs, HasRow w.db g ep
  pointer : ∀ e, w.db.pointer g = some e → w.cell.epoch = some e

theorem sweep_controls (namedGen : g ≠ "") (sorted : Sorted g epochs w)
    (ran : (sweep g epochs).run c.answer w = (.ok (), w')) : Controlled w'.db w'.cell g := by
  obtain ⟨left, leftOf, swept, ranLeft⟩ : ∃ left : List EpochRecord, (∀ ep ∈ left, ep ∈ epochs) ∧
      (∀ ep ∈ epochs, w.cell.epoch ≠ some ep.generationEpoch →
        (ep.processState = .starting ∨ ep.processState = .serving ∧ w.cell.epoch = none) →
        ep ∈ left) ∧ (sweep g epochs).run c.answer w = (Registry.buryAll g left).run c.answer w := by
    cases active : w.cell.active with
    | some adopted =>
      have epoch : w.cell.epoch = some adopted.epoch := by rw [Cell.epoch, active, Option.map_some]
      refine ⟨(startingOf epochs).filter (·.generationEpoch ≠ adopted.epoch), fun ep member => ?_,
        fun ep member apart state => ?_, ?_⟩
      · exact (mem_startingOf.mp (List.mem_of_mem_filter member)).1
      · rw [epoch] at apart state
        simp only [reduceCtorEq, and_false, or_false] at state
        simp only [List.mem_filter, mem_startingOf, member, state, decide_not, Bool.not_eq_eq_eq_not,
          Bool.not_true, decide_eq_false_iff_not, true_and]
        exact fun same => apart (congrArg some same.symm)
      · rw [sweep, readCell, Prog.perform_bind, Prog.run_perform]
        have answered : (c.answer .readCell w).1.active = some adopted := active
        simp only [Prog.ok_bind, answered]
        rfl
    | none =>
      refine ⟨servingOf epochs ++ startingOf epochs, fun ep member => ?_,
        fun ep member _ state => ?_, ?_⟩
      · rcases List.mem_append.mp member with member | member
        · exact (mem_servingOf.mp member).1
        · exact (mem_startingOf.mp member).1
      · rw [List.mem_append, mem_servingOf, mem_startingOf]
        rcases state with starting | ⟨serving, -⟩
        · exact .inr ⟨member, starting⟩
        · exact .inl ⟨member, serving⟩
      · rw [sweep, readCell, Prog.perform_bind, Prog.run_perform]
        have answered : (c.answer .readCell w).1.active = none := active
        simp only [Prog.ok_bind, answered]
        rfl
  obtain ⟨d, ranAll, buried⟩ := run_buryAll (c := c) namedGen
    fun ep member => sorted.rows ep (leftOf ep member)
  rw [ranLeft, ranAll, Prod.mk.injEq] at ran
  obtain ⟨-, rfl⟩ := ran
  refine ⟨fun e state stands => ?_, fun e points => ?_⟩
  · rw [buried.standing] at stands
    split at stands
    · cases stands
      exact .inl rfl
    · rename_i spared
      rcases sorted.known e state stands with dead | adopted | ⟨apart, ep, member, rfl, state⟩
      · exact .inl dead
      · exact .inr adopted
      · exact absurd (List.mem_map_of_mem (swept ep member apart state)) spared
  · exact sorted.pointer e ((buried.pointer e).mp points).1

/-- What a search of the serving epochs that was not aborted leaves. -/
structure Served (g : String) (w w' : Boot) : Prop where
  standing : ∀ e, w'.db.standing e = w.db.standing e
  pointer : w'.db.pointer g = w'.cell.epoch
  serving : ∀ e, w'.cell.epoch = some e → w.db.standing e = some (g, .serving)

theorem Searched.served {r : Except Raised (Option Registry.Repair)}
    (searched : Searched g (servingOf epochs) [] w r w') (rec : Recorded w.db g epochs)
    (bare : w.db.pointer g = none) (fresh : w.cell.active = none)
    (through : r = .ok none ∨ r = .ok (some .adopted)) : Served g w w' := by
  cases searched with
  | failed x => simp at through
  | aborted => simp at through
  | passed buried same =>
    have unadopted : w'.cell.epoch = none := by rw [same, Cell.epoch, fresh, Option.map_none]
    refine ⟨fun e => ?_, ?_, fun e adopted => ?_⟩
    · simp [buried.standing e]
    · rw [unadopted, Option.eq_none_iff_forall_ne_some]
      intro e points
      rw [buried.pointer e, bare] at points
      cases points.1
    · rw [unadopted] at adopted
      cases adopted
  | adopted here standing pointer epoch =>
    refine ⟨fun e => ?_, pointer.trans epoch.symm, fun e adopted => ?_⟩
    · rw [standing e]
      split
      · rename_i same
        rw [same, (rec.serving _ here).2]
      · rfl
    · rw [epoch, Option.some.injEq] at adopted
      exact adopted ▸ (rec.serving _ here).2

/-- A search that a changed holder aborts leaves its epoch as it was. -/
theorem Searched.uncontrolled {items : List EpochRecord} {state : ProcessState}
    (searched : Searched g items names w (.ok (some .aborted)) w')
    (held : ∀ ep ∈ items, InState w.db g state ep) (alive : state ≠ .dead)
    (unadopted : ∀ ep ∈ items, w.cell.epoch ≠ some ep.generationEpoch) :
    ¬ Controlled w'.db w'.cell g := by
  cases searched with
  | aborted here buried spared same =>
    rename_i ep
    intro controlled
    have stands : w'.db.standing ep.generationEpoch = some (g, state) := by
      rw [buried.standing, if_neg spared, (held ep here).2]
    rcases controlled.epochs _ _ stands with dead | ⟨-, adopted⟩
    · exact alive dead
    · exact unadopted ep here (same ▸ adopted)

/-- Without a serving epoch: whatever the search does to the starting ones is sorted. -/
theorem Searched.sorted {r : Except Raised (Option Registry.Repair)}
    (searched : Searched g (startingOf epochs) [] w r w') (rec : Recorded w.db g epochs)
    (bare : w.db.pointer g = none) (fresh : w.cell.active = none) (idle : servingOf epochs = [])
    (through : r = .ok none ∨ r = .ok (some .adopted)) : Sorted g epochs w' := by
  have recorded : ∀ e state, w.db.standing e = some (g, state) → state = .dead ∨
      ∃ ep ∈ epochs, ep.generationEpoch = e ∧ ep.processState = .starting := by
    intro e state stands
    obtain ⟨ep, member, rfl, rfl⟩ := (rec.standing e state).mp stands
    cases state : ep.processState with
    | starting => exact .inr ⟨ep, member, rfl, state⟩
    | dead => exact .inl rfl
    | serving =>
      have serving := mem_servingOf.mpr ⟨member, state⟩
      rw [idle] at serving
      cases serving
  cases searched with
  | failed x => simp at through
  | aborted => simp at through
  | passed buried same =>
    have unadopted : w'.cell.epoch = none := by rw [same, Cell.epoch, fresh, Option.map_none]
    have standing : ∀ e, w'.db.standing e = w.db.standing e := fun e => by simp [buried.standing e]
    refine ⟨fun e state stands => ?_, fun ep member => ?_, fun e points => ?_⟩
    · rcases recorded e state ((standing e).symm.trans stands) with dead | ⟨ep, member, here, state⟩
      · exact .inl dead
      · exact .inr (.inr ⟨by simp [unadopted], ep, member, here, .inl state⟩)
    · exact ⟨rec.epochsNamed ep member, _, (standing _).trans (rec.inState member).2⟩
    · rw [buried.pointer, bare] at points
      cases points.1
  | adopted here standing pointer epoch =>
    rename_i promoted
    refine ⟨fun e state stands => ?_, fun ep member => ⟨rec.epochsNamed ep member, ?_⟩,
      fun e points => epoch.trans (pointer.symm.trans points)⟩
    · rw [standing e] at stands
      split at stands
      · cases stands
        exact .inr (.inl ⟨rfl, by simpa [‹e = _›] using epoch⟩)
      · rename_i other
        rcases recorded e state stands with dead | ⟨ep, member, here, state⟩
        · exact .inl dead
        · refine .inr (.inr ⟨fun adopted => other ?_, ep, member, here, .inl state⟩)
          exact (Option.some.inj (epoch.symm.trans adopted)).symm
    · rw [standing]
      split
      · exact ⟨_, rfl⟩
      · exact ⟨_, (rec.inState member).2⟩

/-- With a serving epoch: the search leaves of the starting ones what it has not put down. -/
theorem Searched.sorted_serving {w₁ : Boot} {items : List EpochRecord}
    (searched : Searched g items names w₁ (.ok none) w') (rec : Recorded w.db g epochs)
    (served : Served g w w₁) : Sorted g epochs w' := by
  cases searched with
  | passed buried same =>
    have standing : ∀ e, w'.db.standing e =
        if e ∈ names then some (g, .dead) else w.db.standing e := by
      intro e
      rw [buried.standing, served.standing]
    refine ⟨fun e state stands => ?_, fun ep member => ⟨rec.epochsNamed ep member, ?_⟩,
      fun e points => ?_⟩
    · rw [standing e] at stands
      split at stands
      · cases stands
        exact .inl rfl
      · obtain ⟨ep, member, rfl, rfl⟩ := (rec.standing e state).mp stands
        by_cases adopted : w'.cell.epoch = some ep.generationEpoch
        · have serves := served.serving ep.generationEpoch (same ▸ adopted)
          rw [(rec.inState member).2, Option.some.injEq, Prod.mk.injEq] at serves
          exact .inr (.inl ⟨serves.2, adopted⟩)
        · cases state : ep.processState with
          | dead => exact .inl rfl
          | starting => exact .inr (.inr ⟨adopted, ep, member, rfl, .inl state⟩)
          | serving =>
            refine .inr (.inr ⟨adopted, ep, member, rfl, .inr ⟨state, ?_⟩⟩)
            -- whatever is adopted serves, and only one epoch does
            refine Option.eq_none_iff_forall_ne_some.mpr fun other taken => adopted ?_
            have serves := serves_iff_standing.mpr (served.serving other (same ▸ taken))
            have serves' := serves_iff_standing.mpr (state ▸ (rec.inState member).2)
            rw [taken, rec.one g other _ serves serves']
    · rw [standing]
      split
      · exact ⟨_, rfl⟩
      · exact ⟨_, (rec.inState member).2⟩
    · rw [buried.pointer, served.pointer] at points
      exact same ▸ points.1

/-- How the search of the starting epochs leaves the generation, after that of the serving ones. -/
theorem repairStarting_sorts {at_ : Deployment} {w₁ : Boot} (rec : Recorded w.db g epochs)
    (bare : w.db.pointer g = none) (fresh : w.cell.active = none) (served : Served g w w₁)
    (empty : servingOf epochs = [] → w₁ = w) {r : Except Raised (Option Registry.Repair)}
    (ran : (Prog.visit (Registry.repairStarting at_ g buildId) (startingOf epochs)).run c.answer w₁ =
      (r, w')) :
    (r = .ok (some .aborted) → ¬ Controlled w'.db w'.cell g) ∧
      (r = .ok none ∨ r = .ok (some .adopted) → Sorted g epochs w') ∧
      (r, w'.asked) = (scan (servingOf epochs).isEmpty g buildId (startingOf epochs)).run c.alone
        w₁.asked := by
  cases serving : servingOf epochs with
  | nil =>
    obtain rfl := empty serving
    have idle : ∀ e, w₁.db.standing e ≠ some (g, .serving) := by
      intro e serves
      obtain ⟨ep, member, -, state⟩ := (rec.standing e _).mp serves
      have here := mem_servingOf.mpr ⟨member, state⟩
      rw [serving] at here
      cases here
    obtain ⟨searched, scanned⟩ := repairStarting_searched (c := c) at_ buildId
      rec.named rec.there bare idle rec.starting
    rw [ran] at searched scanned
    refine ⟨fun aborts => ?_, searched.sorted rec bare fresh serving, scanned⟩
    subst aborts
    refine searched.uncontrolled rec.starting (by decide) fun ep _ => ?_
    simp [Cell.epoch, fresh]
  | cons first rest =>
    have member : first ∈ servingOf epochs := by simp [serving]
    have starting : ∀ ep ∈ startingOf epochs, InState w₁.db g .starting ep := fun ep member =>
      ⟨(rec.starting ep member).1, (served.standing _).trans (rec.starting ep member).2⟩
    obtain ⟨⟨names, -, searched⟩, unpromoted, scanned⟩ :=
      repairStarting_refused (c := c) at_ buildId rec.named
        ((served.standing _).trans (rec.serving first member).2) starting
        ((List.filter_sublist.map _).nodup rec.distinct)
    rw [ran] at searched unpromoted scanned
    refine ⟨fun aborts => ?_, fun through => ?_, scanned⟩
    · subst aborts
      refine searched.uncontrolled starting (by decide) fun ep member adopted => ?_
      have serves := served.serving _ adopted
      rw [(rec.starting ep member).2] at serves
      cases serves
    · rcases through with rfl | promoted
      · exact searched.sorted_serving rec served
      · exact absurd promoted unpromoted

/-- The repair of a pointer puts every other epoch down unless a holder changes in between. -/
theorem reconcileNull_controls {at_ : Deployment} (rec : Recorded w.db g epochs)
    (bare : w.db.pointer g = none) (fresh : w.cell.active = none)
    (ran : (Registry.reconcileNull at_ g buildId epochs).run c.answer w = (.ok (), w')) :
    Controlled w'.db w'.cell g ↔ c.Unchanged g buildId epochs w.asked := by
  have unadopted : w.cell.epoch = none := by rw [Cell.epoch, fresh, Option.map_none]
  -- what is done after the serving epochs, and after the starting ones
  obtain ⟨rest, composed, stops, further, goes, goesOn, stops', sweeps, sweeps'⟩ :
      ∃ rest : Option Registry.Repair → GenRoutine Unit,
        Registry.reconcileNull at_ g buildId epochs =
            Prog.visit (Registry.repairServing g buildId) (servingOf epochs) >>= rest ∧
          rest (some .aborted) = pure () ∧
          ∃ further : Option Registry.Repair → GenRoutine Unit,
            rest none = Prog.visit (Registry.repairStarting at_ g buildId) (startingOf epochs) >>= further ∧
              rest (some .adopted) =
                Prog.visit (Registry.repairStarting at_ g buildId) (startingOf epochs) >>= further ∧
              further (some .aborted) = pure () ∧ further none = sweep g epochs ∧
              further (some .adopted) = sweep g epochs :=
    ⟨_, rfl, rfl, _, rfl, rfl, rfl, rfl, rfl⟩
  obtain ⟨searched, scanned⟩ :=
    repairServing_searched (c := c) buildId rec.named rec.there rec.serving
  rw [composed, Prog.run_bind] at ran
  unfold Replies.Unchanged
  rw [← scanned]
  have unsearched : servingOf epochs = [] →
      (Prog.visit (Registry.repairServing g buildId) (servingOf epochs)).run c.answer w =
        (.ok none, w) := by
    intro empty
    rw [empty]
    rfl
  generalize (Prog.visit (Registry.repairServing g buildId) (servingOf epochs)).run c.answer w = found
    at searched scanned unsearched ran ⊢
  obtain ⟨r, w₁⟩ := found
  by_cases aborts : r = .ok (some .aborted)
  · subst aborts
    dsimp only at ran
    rw [stops] at ran
    simp only [pure, Prog.run_done, Prod.mk.injEq, true_and] at ran
    subst ran
    have uncontrolled := searched.uncontrolled rec.serving (by decide) (by simp [unadopted])
    simp [uncontrolled]
  · obtain ⟨r₂, w₂, ran₂⟩ : ∃ r₂ w₂, (Prog.visit (Registry.repairStarting at_ g buildId)
        (startingOf epochs)).run c.answer w₁ = (r₂, w₂) := ⟨_, _, rfl⟩
    have through : r = .ok none ∨ r = .ok (some .adopted) := by
      obtain _ | _ | _ | _ := r
      · cases ran
      · exact .inl rfl
      · exact .inr rfl
      · exact absurd rfl aborts
    obtain ⟨aborted, sorted, scanned₂⟩ := repairStarting_sorts rec bare fresh
      (searched.served rec bare fresh through)
      (fun empty => congrArg Prod.snd (unsearched empty)) ran₂
    have ended : (Prog.visit (Registry.repairStarting at_ g buildId) (startingOf epochs) >>= further).run
        c.answer w₁ = (.ok (), w') := by
      rcases through with rfl | rfl
      · exact goes ▸ ran
      · exact goesOn ▸ ran
    rw [Prog.run_bind, ran₂] at ended
    dsimp only
    rw [← scanned₂]
    obtain x | _ | _ | _ := r₂
    · cases ended
    · dsimp only at ended
      rw [sweeps] at ended
      simp [sweep_controls rec.named (sorted (.inl rfl)) ended, aborts]
    · dsimp only at ended
      rw [sweeps'] at ended
      simp [sweep_controls rec.named (sorted (.inr rfl)) ended, aborts]
    · dsimp only at ended
      rw [stops'] at ended
      have same : w₂ = w' := congrArg Prod.snd ended
      subst same
      simp [aborted rfl]

end Nelix.Router
