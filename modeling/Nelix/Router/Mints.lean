import Nelix.Router.Registry
import Nelix.Store.Launch
import Nelix.Store.Standing

/-!
# A mint that fails

`active()` of a registry that has adopted nothing, alone on a store. A `MintCourse` settles in
advance how each of its effects turns out: which of them raise, what the daemon and its lock answer,
and whether the daemon is still there in the end.

## Main results

`mint_recovers_iff`: a mint hands out an epoch that serves, or leaves its epoch dead and its daemon
gone or recorded, in exactly the courses that `Recovers` describes; and however many mints fail in
such courses, no epoch of theirs is left starting or serving.
-/
namespace Nelix.Router

open Contracts Core Store GenRoutine

/-! ### Courses -/

/-- How the effects of one mint turn out; `none` is no exception. -/
structure MintCourse where
  clock : Reading
  /-- The ids that are given out, one after another. -/
  ids : ℕ → GenerationId
  runtime : Outcome (Option String) := .ok none
  listed : Option Raised := none
  created : Option Raised := none
  inserted : Option Raised := none
  spawned : Outcome (Option Incarnation × String)
  /-- A daemon that the spawn starts is there until it is reaped. -/
  outlasts : Bool := true
  healthy : Outcome Bool
  /-- What the reads of the lock's holder give, one after another. -/
  holders : ℕ → Outcome (Option Holder)
  promoted : Option Raised := none
  reaped : Outcome Bool := .ok true
  buried : Option Raised := none

/-- The store and the registry during a mint. -/
structure MintScene where
  db : Db
  cell : Cell := {}
  named : ℕ := 0
  looks : ℕ := 0
  /-- A daemon that the mint has started may be running. -/
  atLarge : Bool := false

namespace MintCourse

variable (c : MintCourse)

/-- The exception that a call meets before it reaches the store. -/
def fault : Call → Option Raised
  | .createGeneration .. => c.created
  | .insertEpoch .. => c.inserted
  | .casEpochServing .. => c.promoted
  | .reconcileEpochDead .. => c.buried
  | _ => none

def writes (call : Call) (db : Db) : Outcome Db :=
  match c.fault call with
  | some raised => .error raised
  | none => call.apply db

def lists (db : Db) : Outcome (List GenerationRow) :=
  match c.listed with
  | some raised => .error raised
  | none => db.listGenerations

/-- The answers of a mint's effects. -/
def answer (e : GenEffect) (w : MintScene) : e.Answer × MintScene :=
  match e with
  | .listGenerations _ => (c.lists w.db, w)
  | .write call =>
    match c.writes call w.db with
    | .ok db' => (.ok (), { w with db := db' })
    | .error raised => (.error raised, w)
  | .newGenerationId => ((c.ids w.named).value, { w with named := w.named + 1 })
  | .time => (c.clock, w)
  | .ensureRunning .. => (c.spawned, { w with atLarge := c.outlasts })
  | .checkHealthStrict .. => (c.healthy, w)
  | .liveLockHolder _ => (c.holders w.looks, { w with looks := w.looks + 1 })
  | .reapHolder .. =>
    let gone : Bool := c.reaped matches .ok true
    (c.reaped, { w with atLarge := w.atLarge && !gone })
  | .runtimeActive => (c.runtime, w)
  | .remember g => ((), { w with cell := { w.cell with generationId := some g } })
  | .install adopted bump =>
    ((), { w with cell := { w.cell with
      active := some adopted
      topologyRevision := w.cell.topologyRevision + if bump then 1 else 0 } })
  | .readCell => (w.cell, w)
  | .ask query => (w.db.answer query, w)
  | .ensureDirs _ => (.ok (), w)
  | .runtimeActivate _ => (.ok (), w)
  | .lockOperator => (.ok (), w)
  | .generationDirs => (none, w)
  | .isInstalled _ => (.ok true, w)
  | .endpoint .. => (.ok none, w)
  | .checkHealth .. => (.ok true, w)
  | .healthIdentity .. => (.ok none, w)
  | .lockRegistry | .unlockRegistry | .unlockOperator | .refresh .. | .sleep => ((), w)

/-- One `active()`. -/
def mint (at_ : Deployment) (db : Db) (cell : Cell) : Except Raised Adopted × MintScene :=
  (Registry.active at_).run c.answer { db := db, cell := cell }

end MintCourse

/-- The mint meets the contract: it returns a handle on an epoch that serves and is pointed at, or
it raises and its epoch, if it has got as far as one, is dead and not pointed at, and its daemon is
gone or recorded. (A generation points at none but its own epochs: a foreign key of the schema.) -/
def MintMeets (db : Db) : Except Raised Adopted × MintScene → Prop
  | (.ok a, w) =>
    w.db.Serves a.generationId a.epoch ∧ w.db.pointer a.generationId = some a.epoch
  | (.error _, w) =>
    (∀ e g state, db.standing e = none → w.db.standing e = some (g, state) →
      state = .dead ∧ w.db.pointer g ≠ some e) ∧
    (w.atLarge = true → ∃ e, db.standing e = none ∧ w.db.Recorded e)

/-! ### When a mint recovers -/

/-- The generation that is minted for, its build and the id of the new epoch. -/
structure MintTarget where
  generationId : String
  buildId : Option String
  epoch : GenerationId

/-- Nothing points at an epoch of the generation or serves it. -/
def Vacant (db : Db) (g : String) : Prop := db.pointer g = none ∧ ∀ e, ¬ db.Serves g e

namespace MintCourse

variable (c : MintCourse)

def build (at_ : Deployment) : Outcome (Option String) :=
  match at_.buildId with
  | some build => .ok (some build)
  | none => c.runtime

/-- The active generation, or a new one where there is none. -/
def target (at_ : Deployment) (db : Db) : Option MintTarget :=
  match c.lists db with
  | .error _ => none
  | .ok gens =>
    match Registry.activeRows gens with
    | [] => (c.build at_).toOption.map fun build => ⟨(c.ids 0).value, build, c.ids 1⟩
    | [row] => some ⟨row.generationId, row.buildId, c.ids 0⟩
    | _ => none

/-- The store refuses a generation that is there already, which the mint passes over. -/
def passesOver : Raised → Bool
  | .nelix e => e.code = .duplicateStart
  | _ => false

/-- The generation is there after its insert, provided that the other arguments are well formed. -/
def Makes (db : Db) (g : String) (buildId : Option String) : Prop :=
  match c.created with
  | some raised => passesOver raised = true ∧ db.findGeneration g ≠ none
  | none => buildId ≠ some ""

/-- The epoch comes to be. -/
def Begins (db : Db) (t : MintTarget) : Prop :=
  c.Makes db t.generationId t.buildId ∧ t.generationId ≠ "" ∧ c.clock.toFinite?.isSome ∧
    c.inserted = none ∧ db.findEpoch t.epoch.value = none

/-- Nothing of the daemon is left: it is reaped, or it is not there in the end. -/
def Reaps : Option Incarnation → Prop
  | none => c.outlasts = false
  | some _ => c.reaped = .ok true ∨ c.reaped = .ok false ∧ c.outlasts = false

/-- The promotion and the last look at the lock. -/
def Promotes (db : Db) (g : String) (incarnation : Incarnation) : Prop :=
  match c.promoted with
  | some (.nelix _) => c.Reaps (some incarnation) ∧ c.buried = none
  | some _ => False
  | none =>
    (Vacant db g ∧ ∃ reRead, c.holders 1 = .ok reRead ∧
        (stillHeld reRead incarnation = true ∨ c.buried = none)) ∨
      (¬ Vacant db g ∧ c.Reaps (some incarnation) ∧ c.buried = none)

/-- The daemon's part. -/
def Continues (db : Db) (g : String) (incarnation : Option Incarnation) : Prop :=
  match c.healthy with
  | .error _ => False
  | .ok false => c.Reaps incarnation ∧ c.buried = none
  | .ok true =>
    match c.holders 0 with
    | .error _ => False
    | .ok none => c.Reaps incarnation ∧ c.buried = none
    | .ok (some holder) =>
      incarnation = some holder.incarnation ∧ c.Promotes db g holder.incarnation

/-- The courses that do not reach a point without an undo. -/
def Recovers (at_ : Deployment) (db : Db) : Prop :=
  ∀ t, c.target at_ db = some t → c.Begins db t →
    validGenerationId t.generationId = true ∧
      match c.spawned with
      | .error _ => c.buried = none ∧ c.outlasts = false
      | .ok (incarnation, _) => c.Continues db t.generationId incarnation

end MintCourse

/-! ### The store beside the new epoch -/

variable {c : MintCourse} {at_ : Deployment} {db d d' : Db} {w : MintScene} {g e : String}
  {state : ProcessState} {pointer : Option String}

/-- The new epoch stands so, and everything else is as it was. -/
structure Opened (db d : Db) (g e : String) (state : ProcessState) (pointer : Option String) :
    Prop where
  new : db.standing e = none
  epoch : d.standing e = some (g, state)
  others : ∀ e', e' ≠ e → d.standing e' = db.standing e'
  pointer : d.pointer g = pointer
  pointers : ∀ g', g' ≠ g → d.pointer g' = db.pointer g'

/-- What it takes for a mint that raises to have met the contract. -/
theorem Opened.meets_iff (opened : Opened db w.db g e state pointer) (x : Raised) :
    MintMeets db (.error x, w) ↔
      state = .dead ∧ pointer ≠ some e ∧ (w.atLarge = true → w.db.Recorded e) := by
  constructor
  · rintro ⟨buried, known⟩
    obtain ⟨dead, apart⟩ := buried e g state opened.new opened.epoch
    refine ⟨dead, opened.pointer ▸ apart, fun large => ?_⟩
    obtain ⟨e', new, told⟩ := known large
    by_cases same : e' = e
    · exact same ▸ told
    · exact absurd told (not_recorded ((opened.others e' same).trans new))
  · rintro ⟨dead, apart, known⟩
    refine ⟨fun e' g' state' new found => ?_, fun large => ⟨e, opened.new, known large⟩⟩
    by_cases same : e' = e
    · subst same
      rw [opened.epoch, Option.some.injEq, Prod.mk.injEq] at found
      obtain ⟨rfl, rfl⟩ := found
      exact ⟨dead, opened.pointer ▸ apart⟩
    · rw [opened.others e' same, new] at found
      cases found

theorem Opened.bury (opened : Opened db d g e state pointer) (named : g ≠ "") (named' : e ≠ "") :
    ∃ d', d.reconcileEpochDead g e = .ok d' ∧
      Opened db d' g e .dead (if pointer = some e then none else pointer) ∧
      (d'.Recorded e ↔ d.Recorded e) := by
  obtain ⟨d', done⟩ := reconcileEpochDead_ok_iff.mpr ⟨named, named', state, opened.epoch⟩
  obtain ⟨standing, points⟩ := reconcileEpochDead_standing done
  refine ⟨d', done, ?_, reconcileEpochDead_recorded done⟩
  exact
    { new := opened.new
      epoch := by rw [standing, if_pos rfl]
      others := fun e' other => by rw [standing, if_neg other, opened.others e' other]
      pointer := by simp only [points, opened.pointer, true_and]
      pointers := fun g' other => by
        rw [points, if_neg fun both => other both.1, opened.pointers g' other] }

/-- The store promotes the epoch exactly where its generation is vacant. -/
theorem Opened.promote (opened : Opened db d g e .starting (db.pointer g))
    (there : d.findGeneration g ≠ none) (named : g ≠ "") (named' : e ≠ "") {told : String}
    (said : told ≠ "") :
    (Vacant db g → ∃ d', d.casEpochServing g e none (some told) = .ok d' ∧
        Opened db d' g e .serving (some e) ∧ d'.Recorded e) ∧
      (¬ Vacant db g → ∃ x, d.casEpochServing g e none (some told) = .error (.nelix x)) := by
  have promotes : (∃ d', d.casEpochServing g e none (some told) = .ok d') ↔ Vacant db g := by
    rw [casEpochServing_ok_iff said, opened.pointer]
    constructor
    · rintro ⟨-, -, -, bare, -, alone⟩
      refine ⟨bare, fun e' serves => ?_⟩
      have standing := serves_iff_standing.mp serves
      by_cases same : e' = e
      · rw [same, opened.new] at standing
        cases standing
      · exact alone e' ((opened.others e' same).trans standing)
    · rintro ⟨bare, idle⟩
      refine ⟨named, named', there, bare, opened.epoch, fun e' standing => ?_⟩
      by_cases same : e' = e
      · rw [same, opened.epoch] at standing
        cases standing
      · rw [opened.others e' same] at standing
        exact idle e' (serves_iff_standing.mpr standing)
  constructor
  · intro vacant
    obtain ⟨d', done⟩ := promotes.mpr vacant
    obtain ⟨standing, points⟩ := casEpochServing_standing done
    refine ⟨d', done, ?_, casEpochServing_recorded done⟩
    exact
      { new := opened.new
        epoch := by rw [standing, if_pos rfl]
        others := fun e' other => by rw [standing, if_neg other, opened.others e' other]
        pointer := by rw [points, if_pos rfl]
        pointers := fun g' other => by rw [points, if_neg other, opened.pointers g' other] }
  · intro taken
    cases fails : d.casEpochServing g e none (some told) with
    | ok d' => exact absurd (promotes.mp ⟨d', fails⟩) taken
    | error raised =>
      obtain ⟨x, rfl⟩ := casEpochServing_refused fails
      exact ⟨x, rfl⟩

/-! ### The undo -/

theorem run_mintWrite {call : Call} : (write call).run c.answer w =
    match c.writes call w.db with
    | .ok db' => (.ok (), { w with db := db' })
    | .error raised => (.error raised, w) := by
  simp only [write, Prog.run_perform, MintCourse.answer]
  split <;> rfl

/-- Whatever becomes of the reconciliation, the mint goes on; only a reconciliation that goes through
has the epoch dead. -/
theorem run_tryBury (opened : Opened db w.db g e state pointer) (named : g ≠ "") (named' : e ≠ "") :
    ∃ d', (Registry.tryBury g e).run c.answer w = (.ok (), { w with db := d' }) ∧
      (d'.Recorded e ↔ w.db.Recorded e) ∧
      (c.buried = none → Opened db d' g e .dead (if pointer = some e then none else pointer)) ∧
      (c.buried ≠ none → d' = w.db) := by
  obtain ⟨d', done, dead, recorded⟩ := opened.bury named named'
  have called : (Call.reconcileEpochDead g e).apply w.db = .ok d' := done
  cases fault : c.buried with
  | none =>
    have writes : c.writes (.reconcileEpochDead g e) w.db = .ok d' := by
      simp only [MintCourse.writes, MintCourse.fault, fault, called]
    refine ⟨d', ?_, recorded, fun _ => dead, fun raised => absurd rfl raised⟩
    rw [Registry.tryBury, Prog.run_rescue, run_mintWrite, writes]
  | some raised =>
    have writes : c.writes (.reconcileEpochDead g e) w.db = .error raised := by
      simp only [MintCourse.writes, MintCourse.fault, fault]
    refine ⟨w.db, ?_, Iff.rfl, nofun, fun _ => rfl⟩
    rw [Registry.tryBury, Prog.run_rescue, run_mintWrite, writes]
    rfl

/-- Marking the epoch dead and raising meets the contract exactly where the reconciliation goes
through and the daemon is gone or recorded. -/
theorem meets_tryBury (opened : Opened db w.db g e state pointer) (alive : state ≠ .dead)
    (named : g ≠ "") (named' : e ≠ "") (message : String) :
    MintMeets db ((do
      Registry.tryBury g e
      (Registry.unavailable message : GenRoutine Adopted)).run c.answer w) ↔
      c.buried = none ∧ (w.atLarge = true → w.db.Recorded e) := by
  obtain ⟨d', ran, recorded, dead, kept⟩ := run_tryBury (c := c) opened named named'
  rw [Prog.run_bind, ran]
  by_cases fault : c.buried = none
  · have now := dead fault
    have raised := (show Opened db ({ w with db := d' } : MintScene).db g e .dead _ from
      now).meets_iff (.nelix ⟨.generationUnavailable, message⟩)
    refine raised.trans ?_
    have apart : (if pointer = some e then none else pointer) ≠ some e := by
      split
      · nofun
      · assumption
    simp only [apart, fault, ne_eq, not_false_eq_true, true_and, recorded]
  · have same := kept fault
    subst same
    refine (opened.meets_iff (.nelix ⟨.generationUnavailable, message⟩)).trans ?_
    exact iff_of_false (fun met => alive met.1) fun both => fault both.1

/-- The undo of a mint whose daemon is known. -/
theorem meets_reap (opened : Opened db w.db g e .starting pointer)
    (unrecorded : ¬ w.db.Recorded e) (large : w.atLarge = c.outlasts) (named : g ≠ "")
    (named' : e ≠ "") (known : Incarnation) (message : String) :
    MintMeets db ((do
      let _ ← reapHolder g (some known)
      Registry.tryBury g e
      (Registry.unavailable message : GenRoutine Adopted)).run c.answer w) ↔
      c.Reaps (some known) ∧ c.buried = none := by
  let w' : MintScene := { w with atLarge := w.atLarge && !(c.reaped matches .ok true) }
  have reaped : (reapHolder g (some known)).run c.answer w = (c.reaped, w') := rfl
  have opened' : Opened db w'.db g e .starting pointer := opened
  rw [Prog.run_bind, reaped, MintCourse.Reaps]
  cases reaps : c.reaped with
  | error x =>
    -- A reap that raises skips the reconciliation.
    refine (opened'.meets_iff x).trans (iff_of_false (fun met => by cases met.1) ?_)
    rintro ⟨done | ⟨done, -⟩, -⟩ <;> cases done
  | ok gone =>
    dsimp only
    refine (meets_tryBury opened' (by simp) named named' message).trans ?_
    rw [and_comm]
    cases gone <;> simp [w', reaps, large, unrecorded]

/-- The undo of a mint whose daemon may be unknown. -/
theorem meets_discard (opened : Opened db w.db g e .starting pointer)
    (unrecorded : ¬ w.db.Recorded e) (large : w.atLarge = c.outlasts) (named : g ≠ "")
    (named' : e ≠ "") (incarnation : Option Incarnation) (message : String) :
    MintMeets db ((do
      if incarnation.isSome then
        let _ ← reapHolder g incarnation
      Registry.tryBury g e
      (Registry.unavailable message : GenRoutine Adopted)).run c.answer w) ↔
      c.Reaps incarnation ∧ c.buried = none := by
  cases incarnation with
  | none =>
    refine (meets_tryBury opened (by simp) named named' message).trans ?_
    rw [large, MintCourse.Reaps, and_comm]
    simp [unrecorded]
  | some known =>
    rw [← meets_reap opened unrecorded large named named' known message]
    rfl

/-! ### The promotion -/

/-- The mint from its last look at the lock on. -/
def handOut (a : Adopted) : GenRoutine Adopted := do
  let reRead ← liveLockHolder a.generationId
  if stillHeld reRead a.incarnation = false then do
    Registry.tryBury a.generationId a.epoch
    Registry.unavailable "generation daemon replaced after promotion"
  else do
    install a true
    pure a

/-- The mint from the promotion on. -/
def promoteMint (at_ : Deployment) (a : Adopted) : GenRoutine Adopted := do
  exceptNelix (write (.casEpochServing a.generationId a.epoch none
      (some (at_.incarnationMeta a.incarnation)))) fun _ => do
    let _ ← reapHolder a.generationId (some a.incarnation)
    Registry.tryBury a.generationId a.epoch
    Registry.unavailable "epoch promotion failed (CAS conflict)"
  handOut a

variable {a : Adopted}

/-- The promoted epoch is handed out where the lock still has its daemon. -/
theorem meets_handOut (opened : Opened db w.db a.generationId a.epoch .serving (some a.epoch))
    (recorded : w.db.Recorded a.epoch) (named : a.generationId ≠ "") (named' : a.epoch ≠ "") :
    MintMeets db ((handOut a).run c.answer w) ↔
      ∃ reRead, c.holders w.looks = .ok reRead ∧
        (stillHeld reRead a.incarnation = true ∨ c.buried = none) := by
  let w' : MintScene := { w with looks := w.looks + 1 }
  have opened' : Opened db w'.db a.generationId a.epoch .serving (some a.epoch) := opened
  have looked : (liveLockHolder a.generationId).run c.answer w = (c.holders w.looks, w') := rfl
  rw [handOut, Prog.run_bind, looked]
  cases look : c.holders w.looks with
  | error x =>
    refine (opened'.meets_iff x).trans (iff_of_false (fun met => by cases met.1) ?_)
    rintro ⟨_, read, -⟩
    cases read
  | ok reRead =>
    dsimp only
    by_cases held : stillHeld reRead a.incarnation = true
    · rw [if_neg (by simp [held])]
      exact iff_of_true ⟨serves_iff_standing.mpr opened'.epoch, opened'.pointer⟩
        ⟨reRead, rfl, .inl held⟩
    · rw [if_pos (Bool.not_eq_true _ ▸ held)]
      refine (meets_tryBury opened' (by simp) named named' _).trans ?_
      constructor
      · rintro ⟨buried, -⟩
        exact ⟨reRead, rfl, .inr buried⟩
      · rintro ⟨_, read, still | buried⟩
        · cases read
          exact absurd still held
        · exact ⟨buried, fun _ => recorded⟩

theorem meets_promoteMint (at_ : Deployment)
    (opened : Opened db w.db a.generationId a.epoch .starting (db.pointer a.generationId))
    (there : w.db.findGeneration a.generationId ≠ none) (unrecorded : ¬ w.db.Recorded a.epoch)
    (large : w.atLarge = c.outlasts) (second : w.looks = 1) (named : a.generationId ≠ "")
    (named' : a.epoch ≠ "") :
    MintMeets db ((promoteMint at_ a).run c.answer w) ↔
      c.Promotes db a.generationId a.incarnation := by
  -- A contract error of the promotion is undone, and another one is raised.
  have undone : MintMeets db (((do
      let _ ← reapHolder a.generationId (some a.incarnation)
      Registry.tryBury a.generationId a.epoch
      Registry.unavailable "epoch promotion failed (CAS conflict)" :
        GenRoutine Unit) >>= fun _ => handOut a).run c.answer w) ↔
      c.Reaps (some a.incarnation) ∧ c.buried = none := by
    rw [← meets_reap opened unrecorded large named named' a.incarnation
      "epoch promotion failed (CAS conflict)"]
    simp only [Prog.bind_assoc]
    rfl
  rw [Prog.run_bind] at undone
  have promotes := opened.promote there named named' (at_.incarnationMeta_ne a.incarnation)
  rw [promoteMint, Prog.run_bind, exceptNelix, Prog.run_rescue, run_mintWrite, MintCourse.writes,
    MintCourse.Promotes, MintCourse.fault]
  cases fault : c.promoted with
  | some raised =>
    cases raised with
    | nelix x => exact undone
    | _ => simp [Prog.raise, opened.meets_iff]
  | none =>
    by_cases vacant : Vacant db a.generationId
    · obtain ⟨d', done, serving, recorded⟩ := promotes.1 vacant
      have called : (Call.casEpochServing a.generationId a.epoch none
        (some (at_.incarnationMeta a.incarnation))).apply w.db = .ok d' := done
      have handed := meets_handOut (c := c) (w := { w with db := d' }) serving recorded named named'
      simp only [called, vacant, not_true_eq_false, false_and, or_false, true_and]
      rw [← second]
      exact handed
    · obtain ⟨x, refused⟩ := promotes.2 vacant
      have called : (Call.casEpochServing a.generationId a.epoch none
        (some (at_.incarnationMeta a.incarnation))).apply w.db = .error (.nelix x) := refused
      simp only [called, vacant, not_false_eq_true, false_and, false_or, true_and]
      exact undone

/-! ### The daemon -/

/-- The mint from the running daemon on. -/
def probeMint (at_ : Deployment) (g : String) (buildId : Option String) (e transport : String)
    (incarnation : Option Incarnation) : GenRoutine Adopted := do
  if (← checkHealthStrict g transport e buildId) = false then do
    if incarnation.isSome then
      let _ ← reapHolder g incarnation
    Registry.tryBury g e
    Registry.unavailable "generation daemon health check failed (strict identity mismatch)"
  else
    match ← liveLockHolder g with
    | none => do
      if incarnation.isSome then
        let _ ← reapHolder g incarnation
      Registry.tryBury g e
      Registry.unavailable "generation daemon vanished before installation"
    | some holder =>
      match incarnation with
      | none => .raise .typeError
      | some spawned =>
        if holder.incarnation ≠ spawned then
          Registry.unavailable "generation daemon holder replaced during health check"
        else promoteMint at_ ⟨holder.incarnation, e, g, transport, buildId⟩

/-- The mint after its two inserts. -/
def launchMint (at_ : Deployment) (g : String) (buildId : Option String) (e : String) :
    GenRoutine Adopted := do
  supervise g
  let (incarnation, transport) ← (ensureRunning g buildId e).rescue fun raised => do
    Registry.tryBury g e
    Registry.unavailable s!"failed to spawn generation daemon: {at_.shown raised}"
  probeMint at_ g buildId e transport incarnation

theorem mintInstallUnlocked_eq (gid : String) (buildId : Option String) :
    Registry.mintInstallUnlocked at_ gid buildId = (do
      let clock ← time
      exceptNelix (write (.createGeneration gid buildId .active none clock)) fun e =>
        if e.code ≠ .duplicateStart then
          Registry.unavailable s!"failed to persist generation: {e.message}"
        else pure ()
      let epoch ← newGenerationId
      exceptNelix (write (.insertEpoch epoch gid none clock)) fun e =>
        Registry.unavailable s!"failed to persist starting epoch: {e.message}"
      launchMint at_ gid buildId epoch) := rfl

/-- From the running daemon on. -/
theorem meets_probeMint {buildId : Option String} {transport : String}
    {incarnation : Option Incarnation} (opened : Opened db w.db g e .starting (db.pointer g))
    (there : w.db.findGeneration g ≠ none) (unrecorded : ¬ w.db.Recorded e)
    (large : w.atLarge = c.outlasts) (first : w.looks = 0) (named : g ≠ "") (named' : e ≠ "") :
    MintMeets db ((probeMint at_ g buildId e transport incarnation).run c.answer w) ↔
      c.Continues db g incarnation := by
  have checked : (checkHealthStrict g transport e buildId).run c.answer w = (c.healthy, w) := rfl
  rw [probeMint, Prog.run_bind, checked, MintCourse.Continues]
  match c.healthy with
  | .error x => exact (opened.meets_iff x).trans (iff_of_false (fun met => by cases met.1) id)
  | .ok false => exact meets_discard opened unrecorded large named named' incarnation _
  | .ok true =>
    let w' : MintScene := { w with looks := w.looks + 1 }
    have looked : (liveLockHolder g).run c.answer w = (c.holders 0, w') := by
      rw [← first]
      rfl
    have opened' : Opened db w'.db g e .starting (db.pointer g) := opened
    simp only [Bool.true_eq_false, if_false]
    rw [Prog.run_bind, looked]
    match c.holders 0 with
    | .error x => exact (opened'.meets_iff x).trans (iff_of_false (fun met => by cases met.1) id)
    | .ok none => exact meets_discard opened' unrecorded large named named' incarnation _
    | .ok (some holder) =>
      cases incarnation with
      | none =>
        refine (opened'.meets_iff .typeError).trans (iff_of_false (fun met => by cases met.1) ?_)
        rintro ⟨known, -⟩
        cases known
      | some spawned =>
        by_cases same : holder.incarnation = spawned
        · subst same
          have promoted := meets_promoteMint (c := c) (w := w') at_
            (a := ⟨holder.incarnation, e, g, transport, buildId⟩) opened' there unrecorded large
            (by simp [w', first]) named named'
          simp only [ne_eq, not_true_eq_false, if_false, true_and]
          exact promoted
        · simp only [ne_eq, same, not_false_eq_true, if_true]
          refine (opened'.meets_iff (.nelix ⟨.generationUnavailable, _⟩)).trans
            (iff_of_false (fun met => by cases met.1) ?_)
          rintro ⟨known, -⟩
          exact same (Option.some.inj known).symm

/-- What the mint of an inserted epoch comes to. -/
theorem meets_launchMint (at_ : Deployment) (buildId : Option String)
    (opened : Opened db w.db g e .starting (db.pointer g)) (there : w.db.findGeneration g ≠ none)
    (unrecorded : ¬ w.db.Recorded e) (first : w.looks = 0)
    (named : g ≠ "") (named' : e ≠ "") :
    MintMeets db ((launchMint at_ g buildId e).run c.answer w) ↔
      validGenerationId g = true ∧
        match c.spawned with
        | .error _ => c.buried = none ∧ c.outlasts = false
        | .ok (incarnation, _) => c.Continues db g incarnation := by
  rw [launchMint]
  by_cases valid : validGenerationId g = true
  · let w' : MintScene := { w with atLarge := c.outlasts }
    have opened' : Opened db w'.db g e .starting (db.pointer g) := opened
    have started : (ensureRunning g buildId e).run c.answer w = (c.spawned, w') := rfl
    have supervised : (supervise g).run c.answer w = (.ok (), w) := by
      rw [supervise, if_pos valid]
      rfl
    rw [Prog.run_bind, supervised]
    dsimp only
    rw [Prog.run_bind, Prog.run_rescue, started]
    cases c.spawned with
    | ok started =>
      simp only [valid, true_and]
      exact meets_probeMint opened' there unrecorded rfl first named named'
    | error x =>
      have undone := meets_tryBury (c := c) opened' (by simp) named named'
        s!"failed to spawn generation daemon: {at_.shown x}"
      have recorded : (w'.atLarge = true → w'.db.Recorded e) ↔ c.outlasts = false := by
        simp [w', unrecorded]
      rw [recorded] at undone
      simp only [valid, true_and]
      refine Iff.trans ?_ undone
      rw [← Prog.run_bind, Prog.bind_assoc]
      rfl
  · have refused : (supervise g).run c.answer w = (.error .valueError, w) := by
      rw [supervise, if_neg valid]
      rfl
    rw [Prog.run_bind, refused]
    exact (opened.meets_iff _).trans (iff_of_false (fun met => by cases met.1)
      fun both => valid both.1)

/-! ### The inserts -/

/-- No epoch is new and no pointer has moved. -/
structure Unopened (db d : Db) : Prop where
  standing : ∀ e, d.standing e = db.standing e
  pointers : ∀ g, d.pointer g = db.pointer g

theorem Unopened.refl (db : Db) : Unopened db db := ⟨fun _ => rfl, fun _ => rfl⟩

theorem Unopened.meets (unopened : Unopened db w.db) (small : w.atLarge = false) (x : Raised) :
    MintMeets db (.error x, w) := by
  refine ⟨fun e g state new found => ?_, fun large => by simp [small] at large⟩
  rw [unopened.standing, new] at found
  cases found

theorem unopened_createGeneration {build : Option String} {lifecycle : Lifecycle}
    {created : Reading} (done : db.createGeneration g build lifecycle none created = .ok d) :
    Unopened db d := by
  have epochs := (createGeneration_leaves done).1
  have called : (Call.createGeneration g build lifecycle none created).apply db = .ok d := done
  refine ⟨fun e => by rw [Db.standing, epochs, Db.standing], ?_⟩
  exact (Call.generationsEffect called).pointer rfl (by intros; exact Call.noConfusion) (by intros; exact Call.noConfusion)

/-- An epoch that is inserted is the only change. -/
theorem Unopened.insert {clock : Reading} (unopened : Unopened db d)
    (done : d.insertEpoch e g none clock = .ok d') :
    Opened db d' g e .starting (db.pointer g) ∧ ¬ d'.Recorded e ∧ d'.findGeneration g ≠ none := by
  have fresh := (insertEpoch_ok_iff.mp ⟨d', done⟩).2.2.2.1
  have there := (insertEpoch_ok_iff.mp ⟨d', done⟩).2.2.2.2
  simp only [Db.insertEpoch, bind_ok, demand_ok, require_ok, pure, Except.pure, Except.ok.injEq,
    exists_const] at done
  obtain ⟨_, -, _, -, _, -, t, -, epochs, inserted, -, rfl⟩ := done
  have found (e' : String) := Table.find?_insert inserted e'
  have absent : db.standing e = none := by
    rw [← unopened.standing, Db.standing, fresh, Option.map_none]
  have here : epochs.find? e = some ⟨e, g, .starting, .opened, .null, none, none, t⟩ :=
    (found e).trans (if_pos rfl)
  refine ⟨⟨absent, ?_, fun e' other => ?_, unopened.pointers g, fun g' _ => unopened.pointers g'⟩,
    ?_, there⟩
  · rw [Db.standing, Db.findEpoch, here, Option.map_some]
  · rw [← unopened.standing, Db.standing, Db.findEpoch, found e',
      if_neg fun same => other same.symm]
    rfl
  · rintro ⟨row, found', told⟩
    rw [Db.findEpoch, here, Option.some.injEq] at found'
    subst found'
    exact told rfl

/-- A generation that is there already is passed over. -/
theorem run_create (buildId : Option String) :
    let made := (exceptNelix (write (.createGeneration g buildId .active none c.clock)) fun e =>
      if e.code ≠ .duplicateStart then
        Registry.unavailable s!"failed to persist generation: {e.message}"
      else pure ()).run c.answer w
    (∃ d, made = (.ok (), { w with db := d }) ∧ Unopened w.db d ∧
        (∀ e, d.findEpoch e = w.db.findEpoch e) ∧
        (c.Makes w.db g buildId ↔ d.findGeneration g ≠ none)) ∨
      (∃ x, made = (.error x, w)) ∧
        ¬ (c.Makes w.db g buildId ∧ g ≠ "" ∧ c.clock.toFinite?.isSome = true) := by
  dsimp only
  rw [exceptNelix, Prog.run_rescue, run_mintWrite, MintCourse.writes, MintCourse.fault,
    MintCourse.Makes]
  cases c.created with
  | some raised =>
    cases raised with
    | nelix x =>
      by_cases passed : x.code = .duplicateStart
      · refine .inl ⟨w.db, ?_, .refl _, fun _ => rfl, ?_⟩
        · simp only [passed, ne_eq, not_true_eq_false, if_false]
          rfl
        · simp [MintCourse.passesOver, passed]
      · refine .inr ⟨⟨.nelix ⟨.generationUnavailable, s!"failed to persist generation: {x.message}"⟩,
          ?_⟩, ?_⟩
        · simp only [passed, ne_eq, not_false_eq_true, if_true]
          rfl
        · simp [MintCourse.passesOver, passed]
    | _ => exact .inr ⟨⟨_, rfl⟩, by simp [MintCourse.passesOver]⟩
  | none =>
    cases done : w.db.createGeneration g buildId .active none c.clock with
    | ok d =>
      have called : (Call.createGeneration g buildId .active none c.clock).apply w.db = .ok d := done
      obtain ⟨epochs, there⟩ := createGeneration_leaves done
      obtain ⟨-, built, -⟩ := createGeneration_ok_iff.mp ⟨d, done⟩
      refine .inl ⟨d, ?_, unopened_createGeneration done, epochs, iff_of_true built there⟩
      simp only [called]
    | error x =>
      have called : (Call.createGeneration g buildId .active none c.clock).apply w.db = .error x :=
        done
      obtain ⟨message, ⟨rfl, there, -, built, -⟩ | ⟨rfl, illFormed⟩⟩ := createGeneration_refused done
      · refine .inl ⟨w.db, ?_, .refl _, fun _ => rfl, iff_of_true built there⟩
        simp only [called]
        rfl
      · refine .inr ⟨⟨.nelix ⟨.generationUnavailable, s!"failed to persist generation: {message}"⟩,
          ?_⟩, fun both => ?_⟩
        · simp only [called]
          rfl
        · exact illFormed ⟨both.2.1, both.1, both.2.2⟩

/-- What the mint for a generation comes to. -/
theorem meets_mintInstall (at_ : Deployment) (buildId : Option String) (small : w.atLarge = false)
    (first : w.looks = 0) :
    MintMeets w.db ((Registry.mintInstallUnlocked at_ g buildId).run c.answer w) ↔
      (c.Begins w.db ⟨g, buildId, c.ids w.named⟩ → validGenerationId g = true ∧
        match c.spawned with
        | .error _ => c.buried = none ∧ c.outlasts = false
        | .ok (incarnation, _) => c.Continues w.db g incarnation) := by
  have unfolded : (Registry.mintInstallUnlocked at_ g buildId).run c.answer w =
      ((exceptNelix (write (.createGeneration g buildId .active none c.clock)) fun e =>
        if e.code ≠ .duplicateStart then
          Registry.unavailable s!"failed to persist generation: {e.message}"
        else pure ()) >>= fun _ => do
          let epoch ← newGenerationId
          exceptNelix (write (.insertEpoch epoch g none c.clock)) fun e =>
            Registry.unavailable s!"failed to persist starting epoch: {e.message}"
          launchMint at_ g buildId epoch).run c.answer w := rfl
  rw [unfolded, Prog.run_bind]
  rcases run_create (c := c) (w := w) (g := g) buildId with
    ⟨d, made, unopened, epochs, makes⟩ | ⟨⟨x, made⟩, unmade⟩
  · let w1 : MintScene := { w with db := d, named := w.named + 1 }
    rw [made]
    change MintMeets w.db ((exceptNelix (write (.insertEpoch (c.ids w.named).value g none c.clock))
      (fun e => Registry.unavailable s!"failed to persist starting epoch: {e.message}") >>=
        fun _ => launchMint at_ g buildId (c.ids w.named).value).run c.answer w1) ↔ _
    have unopened' : Unopened w.db w1.db := unopened
    have inserts : (c.Begins w.db ⟨g, buildId, c.ids w.named⟩ ↔ c.inserted = none ∧
        ∃ d', d.insertEpoch (c.ids w.named).value g none c.clock = .ok d') := by
      rw [insertEpoch_ok_iff, ← makes, epochs]
      simp only [MintCourse.Begins, (c.ids w.named).ne_empty, ne_eq, not_false_eq_true, true_and]
      tauto
    rw [Prog.run_bind, exceptNelix, Prog.run_rescue, run_mintWrite, MintCourse.writes,
      MintCourse.fault, inserts]
    cases c.inserted with
    | some raised =>
      refine iff_of_true ?_ fun both => by cases both.1
      cases raised with
      | nelix x => exact unopened'.meets small _
      | _ => exact unopened'.meets small _
    | none =>
      cases done : d.insertEpoch (c.ids w.named).value g none c.clock with
      | error x =>
        have called : (Call.insertEpoch (c.ids w.named).value g none c.clock).apply w1.db =
          .error x := done
        simp only [called]
        refine iff_of_true ?_ fun both => by
          obtain ⟨-, d', done'⟩ := both
          cases done'
        cases x with
        | nelix x => exact unopened'.meets small _
        | _ => exact unopened'.meets small _
      | ok d' =>
        have called : (Call.insertEpoch (c.ids w.named).value g none c.clock).apply w1.db =
          .ok d' := done
        obtain ⟨opened, unrecorded, there⟩ := unopened'.insert done
        have named := (insertEpoch_ok_iff.mp ⟨d', done⟩).2.1
        simp only [called, true_and]
        have launched := meets_launchMint (c := c) (w := { w1 with db := d' }) at_ buildId
          opened there unrecorded first named (c.ids w.named).ne_empty
        exact launched.trans ⟨fun met _ => met, fun met => met ⟨d', rfl⟩⟩
  · rw [made]
    refine iff_of_true ((Unopened.refl w.db).meets small x) fun begins => ?_
    exact absurd ⟨begins.1, begins.2.1, begins.2.2.1⟩ unmade

/-! ### The whole mint -/

theorem run_bootstrapBuild : (Registry.bootstrapBuild at_).run c.answer w = (c.build at_, w) := by
  rw [Registry.bootstrapBuild, MintCourse.build]
  cases at_.buildId <;> rfl

theorem meets_findOrCreate (small : w.atLarge = false) (first : w.looks = 0)
    (unnamed : w.named = 0) :
    MintMeets w.db ((Registry.findOrCreateLocked at_).run c.answer w) ↔ c.Recovers at_ w.db := by
  have same : Unopened w.db w.db := .refl w.db
  have listed : (listGenerations .mint).run c.answer w = (c.lists w.db, w) := rfl
  rw [Registry.findOrCreateLocked, Prog.run_bind, Prog.run_rescue, listed, MintCourse.Recovers,
    MintCourse.target]
  cases c.lists w.db with
  | error x => exact iff_of_true (same.meets small _) nofun
  | ok gens =>
    dsimp only
    match Registry.activeRows gens with
    | [] =>
      dsimp only
      rw [Prog.run_bind, run_bootstrapBuild]
      cases c.build at_ with
      | error x => exact iff_of_true (same.meets small _) nofun
      | ok build =>
        let w1 : MintScene :=
          { w with
            named := w.named + 1
            cell := { w.cell with generationId := some (c.ids w.named).value } }
        have minted := meets_mintInstall (c := c) (w := w1) (g := (c.ids w.named).value) at_
          build small first
        refine Iff.trans minted ?_
        simp [w1, unnamed, Except.toOption]
    | [row] =>
      let w1 : MintScene :=
        { w with cell := { w.cell with generationId := some row.generationId } }
      have minted := meets_mintInstall (c := c) (w := w1) (g := row.generationId) at_
        row.buildId small first
      refine Iff.trans minted ?_
      simp [w1, unnamed]
    | _ :: _ :: _ => exact iff_of_true (same.meets small _) nofun

/-- What is asked of a mint looks at the store and the daemon only. -/
theorem run_active {cell : Cell} (fresh : cell.active = none) :
    c.mint at_ db cell =
      (Registry.findOrCreateLocked at_).run c.answer { db := db, cell := cell } := by
  let w₀ : MintScene := { db := db, cell := cell }
  have locked : c.mint at_ db cell =
      ((Registry.activeLocked at_).ensure unlockRegistry).run c.answer w₀ := rfl
  have read : (readCell : GenRoutine Cell).run c.answer w₀ = (.ok cell, w₀) := rfl
  have body : (Registry.activeLocked at_).run c.answer w₀ = (Registry.findOrCreateLocked at_).run c.answer w₀ := by
    rw [Registry.activeLocked, Prog.run_bind, read]
    dsimp only
    rw [fresh]
  rw [locked, Prog.run_ensure, body]
  rfl

/-! ### Mints one after another -/

/-- The epoch is dead and its generation does not point at it. -/
def Interred (d : Db) (e : String) : Prop :=
  ∃ g, d.standing e = some (g, .dead) ∧ d.pointer g ≠ some e

/-- Only a repair brings an epoch back. -/
theorem Interred.step {call : Call} (interred : Interred d e) (quiet : call.repairs = false)
    (done : call.apply d = .ok d') : Interred d' e := by
  obtain ⟨g, standing, apart⟩ := interred
  obtain ⟨row, found, rfl, dead⟩ := standing_eq_some.mp standing
  have stays : d'.Dead e := by
    have stepped := Db.Dead.step ⟨row, found, dead⟩ quiet
    simpa only [machine, settled, done] using stepped
  obtain ⟨row', found', dead'⟩ := stays
  have named := Db.generationEpoch_of_findEpoch found
  subst named
  -- The generation of an epoch is never changed.
  have owned : row'.generationId = row.generationId := by
    rcases Call.epoch_stays done (Table.mem_of_find? found) with same | ⟨moved, member, move⟩
    · have kept : d'.findEpoch row.generationEpoch = some row := Table.find?_of_mem same
      rw [found', Option.some.injEq] at kept
      rw [kept]
    · have kept : d'.findEpoch row.generationEpoch = some moved :=
        move.key.1 ▸ Table.find?_of_mem member
      rw [found', Option.some.injEq] at kept
      rw [kept, move.key.2]
  have standing' := standing_of_found found'
  rw [owned, dead'] at standing'
  refine ⟨row.generationId, standing', ?_⟩
  cases Call.servingEffect quiet done with
  | kept _ pointer _ => rwa [pointer]
  | buried g' e' _ _ pointer _ =>
    rw [pointer]
    split
    · rintro ⟨⟩
    · exact apart
  | promoted g' e' _ _ _ _ _ _ pointer serves =>
    rw [pointer]
    split
    · rename_i mine
      intro same
      have promoted : e' = row.generationEpoch := Option.some.inj same
      have serving := (serves g' row.generationEpoch).mpr (if_pos promoted.symm ▸ rfl)
      rw [serves_iff_standing, standing'] at serving
      cases serving
    · exact apart

/-- A mint repairs no pointer and sets no process state. -/
def Repairless : GenEffect → Prop
  | .write call => call.repairs = false
  | _ => True

theorem repairless_tryBury : (Registry.tryBury g e).Only Repairless :=
  .rescue (.perform rfl fun _ => .done) fun _ => .pure

theorem repairless_discard {incarnation : Option Incarnation} {message : String} :
    (do
      if incarnation.isSome then
        let _ ← reapHolder g incarnation
      Registry.tryBury g e
      (Registry.unavailable message : GenRoutine Adopted)).Only Repairless := by
  cases incarnation with
  | none => exact .bind repairless_tryBury fun _ => .raise
  | some known =>
    exact .bind (.perform trivial fun _ => .done) fun _ => .bind repairless_tryBury fun _ => .raise

theorem repairless_promoteMint (a : Adopted) : (promoteMint at_ a).Only Repairless := by
  refine .bind (only_exceptNelix (.perform rfl fun _ => .done) fun x => ?_) fun _ => ?_
  · exact .bind (.perform trivial fun _ => .done) fun _ => .bind repairless_tryBury fun _ => .raise
  · refine .bind (.perform trivial fun _ => .done) fun reRead => ?_
    split
    · exact .bind repairless_tryBury fun _ => .raise
    · exact .bind (.perform trivial fun _ => .done) fun _ => .pure

theorem repairless_launchMint {buildId : Option String} :
    (launchMint at_ g buildId e).Only Repairless := by
  refine .bind (only_supervise g) fun _ => .bind (.rescue (.perform trivial fun _ => .done)
    fun raised => .bind repairless_tryBury fun _ => .raise) fun started => ?_
  refine .bind (.perform trivial fun _ => .done) fun healthy => ?_
  split
  · exact repairless_discard
  · refine .bind (.perform trivial fun _ => .done) fun holder => ?_
    split
    · exact repairless_discard
    · split
      · exact .raise
      · split
        · exact .raise
        · exact repairless_promoteMint _

theorem repairless_mintInstall {buildId : Option String} :
    (Registry.mintInstallUnlocked at_ g buildId).Only Repairless := by
  rw [mintInstallUnlocked_eq]
  refine .bind (.perform trivial fun _ => .done) fun clock =>
    .bind (only_exceptNelix (.perform rfl fun _ => .done) fun x => ?_) fun _ =>
    .bind (.perform trivial fun _ => .done) fun epoch =>
    .bind (only_exceptNelix (.perform rfl fun _ => .done) fun x => .raise) fun _ =>
      repairless_launchMint
  split
  · exact .raise
  · exact .pure

theorem repairless_findOrCreate : (Registry.findOrCreateLocked at_).Only Repairless := by
  refine .bind (.rescue (.perform trivial fun _ => .done) fun _ => .raise) fun gens => ?_
  split
  · refine .bind ?_ fun build => .bind (.perform trivial fun _ => .done) fun gid =>
      .bind (.perform trivial fun _ => .done) fun _ => repairless_mintInstall
    unfold Registry.bootstrapBuild
    split
    · exact .pure
    · exact .perform trivial fun _ => .done
  · exact .bind (.perform trivial fun _ => .done) fun _ => repairless_mintInstall
  · exact .raise

/-- What is dead and not pointed at outlives every mint so. -/
theorem Interred.mint {cell : Cell} (interred : Interred db e) (fresh : cell.active = none) :
    Interred (c.mint at_ db cell).2.db e := by
  rw [run_active fresh]
  refine repairless_findOrCreate.run_keeps (fun w : MintScene => Interred w.db e)
    (fun effect w quiet here => ?_) interred
  cases effect with
  | write call =>
    simp only [MintCourse.answer, MintCourse.writes]
    cases c.fault call with
    | some raised => exact here
    | none =>
      cases done : call.apply w.db with
      | ok d' => exact here.step quiet done
      | error x => exact here
  | _ => exact here

/-- A number of mints that fail, each in a course that recovers. -/
inductive FailedMints (at_ : Deployment) : Db → Db → Prop
  | start (db : Db) : FailedMints at_ db db
  | mint {c : MintCourse} {db d : Db} {cell : Cell} {x : Raised} (fresh : cell.active = none)
      (recovers : c.Recovers at_ db) (fails : (c.mint at_ db cell).1 = .error x)
      (rest : FailedMints at_ (c.mint at_ db cell).2.db d) : FailedMints at_ db d

theorem FailedMints.interred (failed : FailedMints at_ db d) (interred : Interred db e) :
    Interred d e := by
  induction failed with
  | start => exact interred
  | mint fresh recovers fails rest ih => exact ih (interred.mint fresh)

/-- One mint in such a course hands out a serving epoch or recovers. -/
theorem meets_mint {cell : Cell} (fresh : cell.active = none) :
    MintMeets db (c.mint at_ db cell) ↔ c.Recovers at_ db := by
  rw [run_active fresh]
  exact meets_findOrCreate (w := { db := db, cell := cell }) rfl rfl rfl

theorem FailedMints.buried (failed : FailedMints at_ db d) (new : db.standing e = none)
    (found : d.standing e = some (g, state)) : state = .dead ∧ d.pointer g ≠ some e := by
  induction failed with
  | start => rw [new] at found; cases found
  | @mint c db d cell x fresh recovers fails rest ih =>
    cases standing : (c.mint at_ db cell).2.db.standing e with
    | none => exact ih standing found
    | some stands =>
      obtain ⟨g', state'⟩ := stands
      have met := (meets_mint fresh).mpr recovers
      generalize c.mint at_ db cell = minted at met fails rest standing
      obtain ⟨outcome, w⟩ := minted
      cases fails
      obtain ⟨dead, apart⟩ := met.1 e g' state' new standing
      have here : Interred w.db e := ⟨g', dead ▸ standing, apart⟩
      obtain ⟨g'', standing', apart'⟩ := rest.interred here
      rw [found, Option.some.injEq, Prod.mk.injEq] at standing'
      obtain ⟨rfl, rfl⟩ := standing'
      exact ⟨rfl, apart'⟩

/-- A mint hands out a serving epoch that is pointed at, or leaves its epoch dead and its daemon gone
or recorded, in exactly these courses; and however many mints fail in them, no epoch of theirs is
left starting, serving or pointed at. -/
theorem mint_recovers_iff (at_ : Deployment) (db : Db) :
    (∀ (c : MintCourse) (cell : Cell), cell.active = none →
      (MintMeets db (c.mint at_ db cell) ↔ c.Recovers at_ db)) ∧
    ∀ d, FailedMints at_ db d → ∀ e g state, db.standing e = none →
      d.standing e = some (g, state) → state = .dead ∧ d.pointer g ≠ some e :=
  ⟨fun _ _ fresh => meets_mint fresh, fun _ failed _ _ _ new found => failed.buried new found⟩

/-! ### A holder that is replaced -/

theorem valid_c1 : validGenerationId "g-000000000000000000000000000000c1" = true := by decide +kernel

theorem valid_c2 : validGenerationId "g-000000000000000000000000000000c2" = true := by decide +kernel

/-- Everything goes well up to the first look at the lock, which another daemon holds. -/
def replacedCourse : MintCourse where
  clock := .finite 2
  ids
    | 0 => ⟨"g-000000000000000000000000000000c1", valid_c1⟩
    | _ + 1 => ⟨"g-000000000000000000000000000000c2", valid_c2⟩
  spawned := .ok (some ⟨11, some "fp"⟩, "/g.sock")
  healthy := .ok true
  holders _ := .ok (some ⟨⟨12, some "other"⟩, some "/g.sock"⟩)

/-- The mint raises with its epoch starting and its daemon at large. -/
theorem mint_recovers_iff_replaced :
    ¬ MintMeets {} (replacedCourse.mint sampleDeployment {} {}) := by
  intro met
  let t : MintTarget := ⟨(replacedCourse.ids 0).value, none, replacedCourse.ids 1⟩
  have named : replacedCourse.target sampleDeployment {} = some t := rfl
  have begins : replacedCourse.Begins {} t :=
    ⟨nofun, (replacedCourse.ids 0).ne_empty, rfl, rfl, rfl⟩
  obtain ⟨-, same, -⟩ := (meets_mint rfl).mp met t named begins
  cases same

/-- The daemon's health is in doubt, and it is reaped. -/
def doubtfulCourse : MintCourse := { replacedCourse with healthy := .ok false }

theorem mint_recovers_iff_reaped :
    MintMeets {} (doubtfulCourse.mint sampleDeployment {} {}) := by
  have named : doubtfulCourse.target sampleDeployment {} =
      some ⟨(doubtfulCourse.ids 0).value, none, doubtfulCourse.ids 1⟩ := rfl
  have recovers : doubtfulCourse.Recovers sampleDeployment {} := fun t here begins => by
    rw [named] at here
    cases here
    exact ⟨(doubtfulCourse.ids 0).valid, .inl rfl, rfl⟩
  exact ((mint_recovers_iff sampleDeployment {}).1 doubtfulCourse {} rfl).mpr recovers

end Nelix.Router
