import Nelix.Core.Pool
import Nelix.Router.Registry
import Nelix.Store.Active

/-!
# Activations and mints side by side

Any number of requests that ask the registry for its active generation, and of activations, over
one store. The requests exclude each other by the registry's lock and the activations by the
operator's; nothing excludes the two kinds from each other but the rows they read. `Topology` remembers
beside the store what a listing has missed.

## Main results

`one_active`: as long as no activation flips alone and no request mints past an active generation
that its listing did not show, two generations are never active at once, and the first write that
does leaves two.
-/
namespace Nelix.Router

open Contracts Core Store GenRoutine

/-! ### The topology -/

/-- The store, the registry's cell and the two locks. -/
structure Topology where
  db : Db
  cell : Cell := {}
  registryLock : Option ℕ := none
  operatorLock : Option ℕ := none
  /-- A generation is active that the activation's listing did not show. -/
  flipBlind : Bool := false
  /-- A generation is active that the request's listing did not show. -/
  mintBlind : Bool := false

/-- The call makes a new generation active. -/
def mints : Call → Bool
  | .createGeneration _ _ .active _ _ => true
  | _ => false

/-- The call flips generations. -/
def flips : Call → Bool
  | .setGenerationLifecycleStateAtomic .. => true
  | _ => false

/-- A call has gone through. -/
def Topology.written (w : Topology) (call : Call) (db' : Db) : Topology :=
  { w with
    db := db'
    flipBlind := w.flipBlind || mints call
    mintBlind := w.mintBlind || flips call }

/-- A listing has gone through. -/
def Topology.listed (w : Topology) : Path → Topology
  | .readopt => w
  | .mint => { w with mintBlind := false }
  | .activate => { w with flipBlind := false }

/-- A listing has failed; the activation goes on without it. -/
def Topology.unlisted (w : Topology) : Path → Topology
  | .readopt | .mint => w
  | .activate =>
    { w with flipBlind := w.db.generations.rows.any (·.lifecycleState = .active) }

/-- What an effect of thread `i` may answer and leave. Every read can fail, a transaction happens
or is refused, and only a call that `admits` lets through happens. -/
inductive TopologyActs (admits : Call → Topology → Prop) (i : ℕ) :
    (e : GenEffect) → Topology → e.Answer → Topology → Prop
  | listed {path : Path} {w : Topology} {gens : List GenerationRow}
      (read : w.db.listGenerations = .ok gens) :
      TopologyActs admits i (.listGenerations path) w (.ok gens) (w.listed path)
  | unlisted {path : Path} {w : Topology} (raised : Raised) :
      TopologyActs admits i (.listGenerations path) w (.error raised) (w.unlisted path)
  | read {query : Query} {w : Topology} {value : query.Value} (read : w.db.answer query = .ok value) :
      TopologyActs admits i (.ask query) w (.ok value) w
  | unread {query : Query} {w : Topology} (raised : Raised) :
      TopologyActs admits i (.ask query) w (.error raised) w
  | written {call : Call} {w : Topology} {db' : Db} (done : call.apply w.db = .ok db')
      (admitted : admits call w) : TopologyActs admits i (.write call) w (.ok ()) (w.written call db')
  | unwritten {call : Call} {w : Topology} (raised : Raised) :
      TopologyActs admits i (.write call) w (.error raised) w
  | locked {w : Topology} (free : w.registryLock = none) :
      TopologyActs admits i .lockRegistry w () { w with registryLock := some i }
  | unlocked {w : Topology} : TopologyActs admits i .unlockRegistry w () { w with registryLock := none }
  | begun {w : Topology} (free : w.operatorLock = none) :
      TopologyActs admits i .lockOperator w (.ok ()) { w with operatorLock := some i }
  | refused {w : Topology} (raised : Raised) :
      TopologyActs admits i .lockOperator w (.error raised) w
  | ended {w : Topology} : TopologyActs admits i .unlockOperator w () { w with operatorLock := none }
  | cell {w : Topology} : TopologyActs admits i .readCell w w.cell w
  | remembered {g : String} {w : Topology} :
      TopologyActs admits i (.remember g) w ()
        { w with cell := { w.cell with generationId := some g } }
  | refreshed {transport : String} {incarnation : Incarnation} {w : Topology} :
      TopologyActs admits i (.refresh transport incarnation) w ()
        { w with cell := { w.cell with active := w.cell.active.map fun a =>
            { a with transport := transport, incarnation := incarnation } } }
  | installed {adopted : Adopted} {bump : Bool} {w : Topology} :
      TopologyActs admits i (.install adopted bump) w ()
        { w with cell := { w.cell with
            active := some adopted
            topologyRevision := w.cell.topologyRevision + if bump then 1 else 0 } }
  | outside {e : GenEffect} {w : Topology} (outside : e.outside = true) (answer : e.Answer) :
      TopologyActs admits i e w answer w

/-- What thread `i` relies on: its locks are its own, and under them no generation becomes active
unnoticed. -/
structure TopologyRelies (i : ℕ) (w w' : Topology) : Prop where
  registry : w'.registryLock = some i ↔ w.registryLock = some i
  operator : w'.operatorLock = some i ↔ w.operatorLock = some i
  stays : ∀ g, w.db.lifecycleOf g ≠ none → w'.db.lifecycleOf g ≠ none
  mint : w.registryLock = some i → (w.mintBlind = false → w.db.NoneActive) →
    w'.mintBlind = false → w'.db.NoneActive
  flip : w.operatorLock = some i → (w.flipBlind = false → w.db.NoneActive) →
    w'.flipBlind = false → w'.db.NoneActive

theorem TopologyRelies.refl (i : ℕ) (w : Topology) : TopologyRelies i w w where
  registry := Iff.rfl
  operator := Iff.rfl
  stays _ there := there
  mint _ none := none
  flip _ none := none

theorem TopologyRelies.trans {i : ℕ} {a b c : Topology} (first : TopologyRelies i a b)
    (second : TopologyRelies i b c) : TopologyRelies i a c where
  registry := second.registry.trans first.registry
  operator := second.operator.trans first.operator
  stays g there := second.stays g (first.stays g there)
  mint held none := second.mint (first.registry.mpr held) (first.mint held none)
  flip held none := second.flip (first.operator.mpr held) (first.flip held none)

def topology (admits : Call → Topology → Prop) (i : ℕ) : Setting GenEffect GenEffect.Answer Topology where
  rely := TopologyRelies i
  act := TopologyActs admits i
  refl := TopologyRelies.refl i
  trans := TopologyRelies.trans

/-- The requests, the activations, and everybody else's writes, which leave the active generations
as they are. -/
def topologyCrew (at_ : Deployment) (admits : Call → Topology → Prop) :
    Crew ℕ GenEffect GenEffect.Answer Raised Unit Topology where
  setting := topology admits
  aside w w' := ∃ (call : Call) (db' : Db), call.apply w.db = .ok db' ∧
    (∀ g, db'.Active g ↔ w.db.Active g) ∧ w' = { w with db := db' }
  enters _ p := p = (do let _ ← Registry.active at_) ∨
    ∃ buildId, p = (do let _ ← Operator.activate at_ buildId)

/-! ### What every step keeps -/

variable {at_ : Deployment} {admits : Call → Topology → Prop} {w w' : Topology} {i j : ℕ}

/-- The effect neither takes a lock, nor lists for a decision, nor makes a generation active. -/
def Calm : GenEffect → Prop
  | .listGenerations path => path = .readopt
  | .write call => call.calm = true
  | .lockRegistry | .unlockRegistry | .lockOperator | .unlockOperator => False
  | _ => True

/-- What a thread may do where it stands. -/
def TopologyPermits (i : ℕ) : GenEffect → Topology → Prop
  | .listGenerations .mint, w => w.registryLock = some i
  | .listGenerations .activate, w => w.operatorLock = some i
  | .write (.createGeneration g _ .active _ _), w =>
    w.registryLock = some i ∧
      (w.db.lifecycleOf g ≠ none ∨ (w.mintBlind = false → w.db.NoneActive))
  | .write (.setGenerationLifecycleStateAtomic old new moved fromOld fromNew), w =>
    w.operatorLock = some i ∧ fromNew = .ready ∧
      ((moved = .draining ∧ fromOld = .active) ∨
        (old = new ∧ (w.flipBlind = false → w.db.NoneActive)))
  | .write (.setGenerationLifecycleState ..), _ => False
  | .unlockRegistry, w => w.registryLock = some i
  | .unlockOperator, w => w.operatorLock = some i
  | _, _ => True

theorem Calm.permits {e : GenEffect} (calm : Calm e) (w : Topology) : TopologyPermits i e w := by
  cases e with
  | listGenerations path =>
    cases path with
    | readopt => trivial
    | mint | activate => cases calm
  | write call =>
    cases call with
    | createGeneration _ _ state =>
      cases state with
      | active => cases calm
      | _ => trivial
    | setGenerationLifecycleState | setGenerationLifecycleStateAtomic => cases calm
    | _ => trivial
  | unlockRegistry | unlockOperator => exact calm.elim
  | _ => trivial

/-- What holds of the topology in every run: one generation is active at most, and one is where a
listing has missed it. -/
structure Single (w : Topology) : Prop where
  one : w.db.OneActive
  missed : w.flipBlind = true ∨ w.mintBlind = true → ∃ g, w.db.Active g

/-- No write goes past an active generation that a listing did not show: an activation does not
flip alone, and a request does not mint. -/
def Sighted : Call → Topology → Prop
  | .setGenerationLifecycleStateAtomic old new _ _ _, w => old = new → w.flipBlind = false
  | .createGeneration _ _ .active _ _, w => w.mintBlind = false
  | _, _ => True

/-! ### What an effect does to the others -/

/-- Effects that leave the locks, the flags and the active generations alone. -/
structure Still (w w' : Topology) : Prop where
  registry : w'.registryLock = w.registryLock
  operator : w'.operatorLock = w.operatorLock
  flip : w'.flipBlind = w.flipBlind
  mint : w'.mintBlind = w.mintBlind
  stays : ∀ g, w.db.lifecycleOf g ≠ none → w'.db.lifecycleOf g ≠ none
  active : ∀ g, w'.db.Active g ↔ w.db.Active g

theorem Still.of_db (registry : w'.registryLock = w.registryLock)
    (operator : w'.operatorLock = w.operatorLock) (flip : w'.flipBlind = w.flipBlind)
    (mint : w'.mintBlind = w.mintBlind) (db : w'.db = w.db) : Still w w' :=
  ⟨registry, operator, flip, mint, fun _ there => db ▸ there, fun _ => db ▸ Iff.rfl⟩

theorem Still.noneActive (still : Still w w') : w'.db.NoneActive ↔ w.db.NoneActive :=
  forall_congr' fun g => not_congr (still.active g)

theorem Still.relies (still : Still w w') (i : ℕ) : TopologyRelies i w w' where
  registry := by rw [still.registry]
  operator := by rw [still.operator]
  stays := still.stays
  mint _ none clear := still.noneActive.mpr (none (still.mint ▸ clear))
  flip _ none clear := still.noneActive.mpr (none (still.flip ▸ clear))

theorem Still.single (still : Still w w') (single : Single w) : Single w' where
  one g g' active active' := single.one g g' ((still.active g).mp active) ((still.active g').mp active')
  missed blind := by
    rw [still.flip, still.mint] at blind
    obtain ⟨g, active⟩ := single.missed blind
    exact ⟨g, (still.active g).mpr active⟩

theorem Call.calm_quiet {call : Call} (calm : call.calm = true) :
    mints call = false ∧ flips call = false := by
  cases call with
  | createGeneration _ _ state => cases state <;> first | exact ⟨rfl, rfl⟩ | cases calm
  | setGenerationLifecycleStateAtomic => cases calm
  | _ => exact ⟨rfl, rfl⟩

/-- A calm effect is still. -/
theorem TopologyActs.still {e : GenEffect} {r : e.Answer} (calm : Calm e)
    (acts : TopologyActs admits i e w r w') : Still w w' := by
  cases acts with
  | @listed path => cases path <;> first | exact .of_db rfl rfl rfl rfl rfl | cases calm
  | @unlisted path => cases path <;> first | exact .of_db rfl rfl rfl rfl rfl | cases calm
  | @written call w db' done admitted =>
    have quiet := Call.calm_quiet calm
    exact ⟨rfl, rfl, by simp [Topology.written, quiet.1], by simp [Topology.written, quiet.2],
      fun g there => Call.lifecycle_stays done there, Call.calm_active calm done⟩
  | locked | unlocked | begun | refused | ended => cases calm
  | _ => exact .of_db rfl rfl rfl rfl rfl

/-- A call that a thread may make is calm, a mint or a flip. -/
theorem permitted_cases {call : Call} (permits : TopologyPermits i (.write call) w) :
    call.calm = true ∨
      (∃ g build snapshot created, call = .createGeneration g build .active snapshot created) ∨
      ∃ old new moved fromOld fromNew,
        call = .setGenerationLifecycleStateAtomic old new moved fromOld fromNew := by
  cases call with
  | createGeneration g build state snapshot created =>
    cases state with
    | active => exact .inr (.inl ⟨g, build, snapshot, created, rfl⟩)
    | _ => exact .inl rfl
  | setGenerationLifecycleState => exact permits.elim
  | setGenerationLifecycleStateAtomic old new moved fromOld fromNew =>
    exact .inr (.inr ⟨old, new, moved, fromOld, fromNew, rfl⟩)
  | _ => exact .inl rfl

/-- No thread disturbs another one. -/
theorem TopologyActs.relies {e : GenEffect} {r : e.Answer} (permits : TopologyPermits i e w)
    (acts : TopologyActs admits i e w r w') (other : j ≠ i) : TopologyRelies j w w' := by
  have apart : (some i : Option ℕ) ≠ some j := fun same => other (Option.some.inj same).symm
  cases acts with
  | @listed path =>
    cases path with
    | readopt => exact .refl j w
    | mint =>
      have mine : w.registryLock = some i := permits
      exact ⟨Iff.rfl, Iff.rfl, fun _ there => there, fun held => absurd (mine ▸ held) apart,
        fun _ none => none⟩
    | activate =>
      have mine : w.operatorLock = some i := permits
      exact ⟨Iff.rfl, Iff.rfl, fun _ there => there, fun _ none => none,
        fun held => absurd (mine ▸ held) apart⟩
  | @unlisted path =>
    cases path with
    | readopt | mint => exact .refl j w
    | activate =>
      have mine : w.operatorLock = some i := permits
      exact ⟨Iff.rfl, Iff.rfl, fun _ there => there, fun _ none => none,
        fun held => absurd (mine ▸ held) apart⟩
  | @written call w db' done admitted =>
    have stays : ∀ g, w.db.lifecycleOf g ≠ none → db'.lifecycleOf g ≠ none :=
      fun g there => Call.lifecycle_stays done there
    rcases permitted_cases permits with calm | ⟨g, build, snapshot, created, rfl⟩ |
      ⟨old, new, moved, fromOld, fromNew, rfl⟩
    · have acts : TopologyActs admits i (.write call) w (.ok ()) (w.written call db') :=
        .written done admitted
      have quiet : Calm (.write call) := calm
      exact (acts.still quiet).relies j
    · -- A mint is noticed by the activation, and no other request is minting.
      refine ⟨Iff.rfl, Iff.rfl, stays, fun held => absurd (permits.1 ▸ held) apart, ?_⟩
      intro _ _ clear
      simp [Topology.written, mints] at clear
    · -- A flip is noticed by the request, and no other activation is under way.
      refine ⟨Iff.rfl, Iff.rfl, stays, ?_, fun held => absurd (permits.1 ▸ held) apart⟩
      intro _ _ clear
      simp [Topology.written, flips] at clear
  | locked free =>
    refine ⟨by simp [free, apart], Iff.rfl, fun _ there => there, fun held => ?_, fun _ none => none⟩
    rw [free] at held
    cases held
  | unlocked =>
    have mine : w.registryLock = some i := permits
    exact ⟨by simp [mine, apart], Iff.rfl, fun _ there => there,
      fun held => absurd (mine ▸ held) apart, fun _ none => none⟩
  | begun free =>
    refine ⟨Iff.rfl, by simp [free, apart], fun _ there => there, fun _ none => none, fun held => ?_⟩
    rw [free] at held
    cases held
  | ended =>
    have mine : w.operatorLock = some i := permits
    exact ⟨Iff.rfl, by simp [mine, apart], fun _ there => there, fun _ none => none,
      fun held => absurd (mine ▸ held) apart⟩
  | _ =>
    refine Still.relies ?_ j
    exact .of_db rfl rfl rfl rfl rfl

/-- A mint of a generation that was not there: it is active beside those that were. -/
theorem Single.mint {g : String} {build snapshot : Option String} {created : Reading} {db' : Db}
    (permits : TopologyPermits i (.write (.createGeneration g build .active snapshot created)) w)
    (sighted : w.mintBlind = false)
    (done : (Call.createGeneration g build .active snapshot created).apply w.db = .ok db') :
    Single (w.written (.createGeneration g build .active snapshot created) db') := by
  obtain ⟨fresh, active⟩ := active_created done
  have none := permits.2.resolve_left (not_not.mpr fresh) sighted
  have only : ∀ g', db'.Active g' → g' = g := fun g' here =>
    ((active g').mp here).resolve_right (none g')
  exact ⟨fun g' g'' here there => (only g' here).trans (only g'' there).symm,
    fun _ => ⟨g, (active g).mpr (.inl rfl)⟩⟩

theorem Single.flip {old new : String} {moved fromOld fromNew : Lifecycle} {db' : Db}
    (single : Single w)
    (permits : TopologyPermits i
      (.write (.setGenerationLifecycleStateAtomic old new moved fromOld fromNew)) w)
    (sighted : old = new → w.flipBlind = false)
    (done : (Call.setGenerationLifecycleStateAtomic old new moved fromOld fromNew).apply w.db =
      .ok db') :
    Single (w.written (.setGenerationLifecycleStateAtomic old new moved fromOld fromNew) db') := by
  obtain ⟨wasOld, wasNew, active⟩ := active_flipped done
  obtain ⟨-, rfl, kind⟩ := permits
  have only : ∀ g', db'.Active g' → g' = new := by
    intro g' here
    by_contra notNew
    have kept := ((active g').mp here).resolve_left notNew
    rcases kind with ⟨rfl, rfl⟩ | ⟨rfl, none⟩
    · -- The old generation was the active one, and it drains now.
      by_cases isOld : g' = old
      · rw [if_pos isOld] at kept
        cases kept
      · rw [if_neg isOld] at kept
        exact isOld (single.one g' old kept wasOld)
    · rw [if_neg notNew] at kept
      exact none (sighted rfl) g' kept
  exact ⟨fun g' g'' here there => (only g' here).trans (only g'' there).symm,
    fun _ => ⟨new, (active new).mpr (.inl rfl)⟩⟩

theorem TopologyActs.keeps {e : GenEffect} {r : e.Answer} (single : Single w)
    (permits : TopologyPermits i e w) (acts : TopologyActs Sighted i e w r w') : Single w' := by
  cases acts with
  | @listed path =>
    cases path with
    | readopt => exact single
    | mint =>
      exact ⟨single.one, fun blind => single.missed (blind.imp_right fun clear => (by cases clear))⟩
    | activate =>
      exact ⟨single.one, fun blind => single.missed (blind.imp_left fun clear => (by cases clear))⟩
  | @unlisted path =>
    cases path with
    | readopt | mint => exact single
    | activate =>
      refine ⟨single.one, fun blind => ?_⟩
      rcases blind with here | before
      · obtain ⟨row, member, active⟩ := List.any_eq_true.mp here
        refine ⟨row.generationId, (?_ : w.db.Active row.generationId)⟩
        have found : w.db.findGeneration row.generationId = some row := Table.find?_of_mem member
        rw [Db.Active, lifecycleOf_of_found found, of_decide_eq_true active]
      · exact single.missed (.inr before)
  | @written call w db' done admitted =>
    rcases permitted_cases permits with calm | ⟨g, build, snapshot, created, rfl⟩ |
      ⟨old, new, moved, fromOld, fromNew, rfl⟩
    · have acts : TopologyActs Sighted i (.write call) w (.ok ()) (w.written call db') :=
        .written done admitted
      have quiet : Calm (.write call) := calm
      exact (acts.still quiet).single single
    · exact Single.mint permits admitted done
    · exact single.flip permits admitted done
  | _ => exact ⟨single.one, single.missed⟩

/-! ### Each thread is safe -/

/-- Which of the two locks the thread holds. -/
structure Stands (i : ℕ) (registry operator : Prop) (w : Topology) : Prop where
  registry : w.registryLock = some i ↔ registry
  operator : w.operatorLock = some i ↔ operator

/-- The request saw no active generation; it is to mint this one. -/
structure Minting (i : ℕ) (operator : Prop) (g : String) (w : Topology) : Prop where
  stands : Stands i True operator w
  none : w.db.lifecycleOf g ≠ none ∨ (w.mintBlind = false → w.db.NoneActive)

/-- The activation saw no active generation, or it is to drain the one it saw. -/
structure Flipping (i : ℕ) (old : Option GenerationRow) (w : Topology) : Prop where
  stands : Stands i False True w
  none : old = none → w.flipBlind = false → w.db.NoneActive

/-- Nobody else takes away what the thread knows. -/
def Steady (i : ℕ) (inv : Topology → Prop) : Prop :=
  ∀ w w', TopologyRelies i w w' → inv w → inv w'

variable {registry operator : Prop} {inv : Topology → Prop} {α β : Type}

theorem steady_stands : Steady i (Stands i registry operator) := fun _ _ moves stands =>
  ⟨moves.registry.trans stands.registry, moves.operator.trans stands.operator⟩

theorem steady_minting {g : String} : Steady i (Minting i operator g) := by
  refine fun w w' moves minting => ⟨steady_stands w w' moves minting.stands, ?_⟩
  exact minting.none.imp (moves.stays g) (moves.mint (minting.stands.registry.mpr trivial))

theorem steady_flipping {old : Option GenerationRow} : Steady i (Flipping i old) := by
  refine fun w w' moves flipping => ⟨steady_stands w w' moves flipping.stands, fun unseen => ?_⟩
  exact moves.flip (flipping.stands.operator.mpr trivial) (flipping.none unseen)

/-- How a thread goes on when all is well. -/
abbrev Proceeds (admits : Call → Topology → Prop) (i : ℕ) (post : Except Raised α → Topology → Prop)
    (p : GenRoutine α) (w : Topology) : Prop :=
  (topology admits i).Safe (TopologyPermits i) post p w

/-- A calm program keeps what the thread knows. -/
theorem proceeds_calm {p : GenRoutine α} (steady : Steady i inv) (calm : p.Only Calm)
    (start : inv w) : Proceeds admits i (fun _ => inv) p w :=
  Setting.Safe.keeps inv calm steady
    (fun _ w _ w' quiet here acts => steady w w' ((TopologyActs.still quiet acts).relies i) here)
    (fun _ w quiet _ => quiet.permits w) start

theorem proceeds_first {q : GenRoutine α} {f : α → GenRoutine β}
    {post : Except Raised β → Topology → Prop} (steady : Steady i inv) (calm : q.Only Calm)
    (start : inv w) (fails : ∀ x w, inv w → post (.error x) w)
    (rest : ∀ a w, inv w → Proceeds admits i post (f a) w) : Proceeds admits i post (q >>= f) w :=
  Setting.Safe.first inv calm steady
    (fun _ w _ w' quiet here acts => steady w w' ((TopologyActs.still quiet acts).relies i) here)
    (fun _ w quiet _ => quiet.permits w) start fails rest

/-! ### What is calm -/

section Calm

variable {gid transport epoch : String} {buildId : Option String}

theorem calm_ask {q : Query} : (ask q).Only Calm := .perform trivial fun _ => .done

theorem calm_write {call : Call} (calm : call.calm = true) : (write call).Only Calm :=
  .perform calm fun _ => .done

theorem calm_unavailable {message : String} : (Registry.unavailable message : GenRoutine α).Only Calm :=
  .raise

theorem calm_liveLockHolder : (liveLockHolder gid).Only Calm := .perform trivial fun _ => .done

theorem calm_checkHealthStrict : (checkHealthStrict gid transport epoch buildId).Only Calm :=
  .perform trivial fun _ => .done

theorem calm_reapHolder {incarnation : Option Incarnation} :
    (reapHolder gid incarnation).Only Calm := .perform trivial fun _ => .done

theorem calm_transportOf {holder : Holder} :
    (Registry.transportOf gid buildId epoch holder).Only Calm := by
  unfold Registry.transportOf
  split
  · exact .pure
  · exact .perform trivial fun _ => .done

theorem calm_verifyPointer : (Registry.verifyPointer gid epoch).Only Calm := by
  refine .bind calm_ask fun gen => .bind calm_ask fun epochs => ?_
  split
  · split
    · exact calm_write rfl
    · exact calm_unavailable
  · split
    · split
      · split <;> exact calm_unavailable
      · exact calm_unavailable
    · split
      · exact calm_unavailable
      · split
        · exact calm_unavailable
        · exact .pure

theorem calm_refreshActiveLocked (a : Adopted) : (Registry.refreshActiveLocked a).Only Calm := by
  refine .bind (only_supervise _) fun _ => .bind calm_liveLockHolder fun holder => ?_
  split
  · exact calm_unavailable
  · refine .bind calm_transportOf fun transport => ?_
    split
    · exact calm_unavailable
    · refine .bind calm_checkHealthStrict fun healthy => ?_
      split
      · exact calm_unavailable
      · split
        · exact calm_unavailable
        · refine .bind calm_verifyPointer fun _ => .bind calm_liveLockHolder fun again => ?_
          split
          · exact calm_unavailable
          · exact .bind (.perform trivial fun _ => .done) fun _ => .pure

theorem calm_tryBury : (Registry.tryBury gid epoch).Only Calm :=
  .rescue (calm_write rfl) fun _ => .pure

/-- The daemon is stopped where it is known, and its epoch is marked dead. -/
theorem calm_discard {incarnation : Option Incarnation} {message : String} :
    (do
      if incarnation.isSome then
        let _ ← reapHolder gid incarnation
      Registry.tryBury gid epoch
      (Registry.unavailable message : GenRoutine α)).Only Calm := by
  dsimp only
  split
  · exact .bind calm_reapHolder fun _ => .bind calm_tryBury fun _ => calm_unavailable
  · exact .bind calm_tryBury fun _ => calm_unavailable

end Calm

/-! ### The requests -/

variable {at_ : Deployment} {gid : String} {buildId : Option String}

/-- The lock is given back however the body ends. -/
theorem proceeds_unlockRegistry {body : GenRoutine α}
    (goes : Proceeds admits i (fun _ => Stands i True operator) body w) :
    Proceeds admits i (fun _ => Stands i False operator) (body.ensure unlockRegistry) w := by
  refine Setting.Safe.ensure (goes.mono fun r w here w1 moves1 => ?_)
  have there := steady_stands w w1 moves1 here
  refine ⟨there.registry.mpr trivial, fun _ w2 acts w3 moves3 => ?_⟩
  cases acts with
  | unlocked => exact steady_stands _ w3 moves3 ⟨by simp, there.operator⟩
  | outside out => cases out

/-- A generation is created where none was seen, or it was there before. -/
theorem proceeds_create {clock : Reading} {handler : NelixError → GenRoutine Unit}
    (minting : Minting i operator gid w) (handled : ∀ e, (handler e).Only Calm) :
    Proceeds admits i (fun _ => Stands i True operator)
      (exceptNelix (write (.createGeneration gid buildId .active none clock)) handler) w := by
  refine Setting.Safe.rescue ?_
  intro w1 moves1
  have here := steady_minting w w1 moves1 minting
  refine ⟨⟨here.stands.registry.mpr trivial, here.none⟩, fun answer w2 acts w3 moves3 => ?_⟩
  have there : Stands i True operator w2 := by
    cases acts with
    | written => exact ⟨here.stands.registry, here.stands.operator⟩
    | unwritten => exact here.stands
    | outside out => cases out
  have later := steady_stands w2 w3 moves3 there
  match answer with
  | .ok () => exact later
  | .error (.nelix e) => exact proceeds_calm steady_stands (handled e) later
  | .error .typeError | .error .attributeError | .error .valueError | .error .overflowError
  | .error (.runtimeError _) => exact fun w4 moves4 => steady_stands w3 w4 moves4 later

theorem proceeds_mint (minting : Minting i operator gid w) :
    Proceeds admits i (fun _ => Stands i True operator)
      (Registry.mintInstallUnlocked at_ gid buildId) w := by
  refine proceeds_first steady_minting (.perform trivial fun _ => .done) minting
    (fun _ _ here => here.stands) fun clock w here => ?_
  refine Setting.Safe.bind ((proceeds_create here fun e => ?_).mono fun r w here => ?_)
  · split
    · exact calm_unavailable
    · exact .pure
  · cases r with
    | error x => exact here
    | ok done =>
      refine proceeds_calm steady_stands ?_ here
      refine .bind (.perform trivial fun _ => .done) fun epoch => ?_
      refine .bind (only_exceptNelix (calm_write rfl) fun e => calm_unavailable) fun _ => ?_
      refine .bind (only_supervise _) fun _ => ?_
      refine .bind (.rescue (.perform trivial fun _ => .done) fun raised =>
        .bind calm_tryBury fun _ => calm_unavailable) fun started => ?_
      obtain ⟨incarnation, transport⟩ := started
      refine .bind calm_checkHealthStrict fun healthy => ?_
      split
      · exact calm_discard
      · refine .bind calm_liveLockHolder fun holder => ?_
        split
        · exact calm_discard
        · split
          · exact .raise
          · split
            · exact calm_unavailable
            · refine .bind (only_exceptNelix (calm_write rfl) fun e =>
                .bind calm_reapHolder fun _ => .bind calm_tryBury fun _ => calm_unavailable) fun _ => ?_
              refine .bind calm_liveLockHolder fun again => ?_
              split
              · exact .bind calm_tryBury fun _ => calm_unavailable
              · exact .bind (.perform trivial fun _ => .done) fun _ => .pure

theorem calm_bootstrapBuild : (Registry.bootstrapBuild at_).Only Calm := by
  unfold Registry.bootstrapBuild
  split
  · exact .pure
  · exact .perform trivial fun _ => .done

/-- What a request learns from its listing. -/
theorem minting_of_listed {gens : List GenerationRow} (stands : Stands i True operator w)
    (listed : w.db.listGenerations = .ok gens) :
    match Registry.activeRows gens with
    | [] => ∀ g, Minting i operator g (w.listed .mint)
    | [row] => Minting i operator row.generationId (w.listed .mint)
    | _ => True := by
  split
  · rename_i none
    refine fun g => ⟨⟨stands.registry, stands.operator⟩, .inr fun _ g' active => ?_⟩
    obtain ⟨row, member, -, state⟩ := (active_iff_listed listed).mp active
    have shown : row ∈ Registry.activeRows gens := List.mem_filter.mpr ⟨member, by simp [state]⟩
    rw [none] at shown
    cases shown
  · rename_i row only
    refine ⟨⟨stands.registry, stands.operator⟩, .inl ?_⟩
    have shown : row ∈ Registry.activeRows gens := only ▸ List.mem_singleton_self row
    have found := found_of_listed listed (List.mem_filter.mp shown).1
    exact lifecycleOf_of_found found ▸ Option.some_ne_none _
  · trivial

theorem proceeds_findOrCreate (stands : Stands i True operator w) :
    Proceeds admits i (fun _ => Stands i True operator) (Registry.findOrCreateLocked at_) w := by
  intro w1 moves1
  have here := steady_stands w w1 moves1 stands
  refine ⟨here.registry.mpr trivial, fun answer w2 acts => ?_⟩
  cases acts with
  | unlisted raised => exact fun w3 moves3 => steady_stands _ w3 moves3 here
  | outside out => cases out
  | @listed _ _ gens listed =>
    have learnt := minting_of_listed here listed
    simp only [Prog.rescue, Prog.bind]
    rcases rows : Registry.activeRows gens with _ | ⟨row, _ | ⟨second, rest⟩⟩
    · simp only [rows] at learnt
      have steady : Steady i fun w => ∀ g, Minting i operator g w :=
        fun w w' moves unseen g => steady_minting w w' moves (unseen g)
      refine proceeds_first steady calm_bootstrapBuild learnt (fun _ _ here => (here "").stands)
        fun buildId w here => ?_
      refine proceeds_first steady (.perform trivial fun _ => .done) here
        (fun _ _ here => (here "").stands) fun gid w here => ?_
      exact proceeds_first steady (.perform trivial fun _ => .done) here
        (fun _ _ here => (here "").stands) fun _ w here => proceeds_mint (here gid)
    · simp only [rows] at learnt
      exact proceeds_first steady_minting (.perform trivial fun _ => .done) learnt
        (fun _ _ here => here.stands) fun _ w here => proceeds_mint here
    · exact fun w3 moves3 =>
        steady_stands (w1.listed .mint) w3 moves3 ⟨here.registry, here.operator⟩

/-- `registry.active()` takes the lock and gives it back. -/
theorem proceeds_active (stands : Stands i False operator w) :
    Proceeds admits i (fun _ => Stands i False operator) (Registry.active at_) w := by
  intro w1 moves1
  have here := steady_stands w w1 moves1 stands
  refine ⟨trivial, fun _ w2 acts => ?_⟩
  cases acts with
  | outside out => cases out
  | locked free =>
    refine proceeds_unlockRegistry ?_
    have locked : Stands i True operator { w1 with registryLock := some i } :=
      ⟨by simp, here.operator⟩
    refine proceeds_first steady_stands (.perform trivial fun _ => .done) locked
      (fun _ _ here => here) fun cell w here => ?_
    split
    · exact proceeds_calm steady_stands (calm_refreshActiveLocked _) here
    · exact proceeds_findOrCreate here

/-! ### The activations -/

theorem proceeds_adoptGeneration (adopted : Adopted) (stands : Stands i False operator w) :
    Proceeds admits i (fun _ => Stands i False operator) (Registry.adoptGeneration adopted) w := by
  intro w1 moves1
  have here := steady_stands w w1 moves1 stands
  refine ⟨trivial, fun _ w2 acts => ?_⟩
  cases acts with
  | outside out => cases out
  | locked free =>
    refine proceeds_unlockRegistry ?_
    have locked : Stands i True operator { w1 with registryLock := some i } :=
      ⟨by simp, here.operator⟩
    exact proceeds_calm steady_stands
      (.bind (.perform trivial fun _ => .done) fun _ => .perform trivial fun _ => .done) locked

/-- What an activation learns from its listing, or does not. -/
theorem proceeds_findOld (stands : Stands i False True w) :
    Proceeds admits i
      (fun r w => match r with
        | .ok old => Flipping i old w
        | .error _ => Stands i False True w)
      Operator.findOld w := by
  intro w1 moves1
  have here := steady_stands w w1 moves1 stands
  refine ⟨here.operator.mpr trivial, fun answer w2 acts => ?_⟩
  cases acts with
  | outside out => cases out
  | @unlisted _ _ raised =>
    have blind : Flipping i none (w1.unlisted .activate) := by
      refine ⟨⟨here.registry, here.operator⟩, fun _ clear g active => ?_⟩
      obtain ⟨row, found, state⟩ := Option.map_eq_some_iff.mp active
      have seen := List.any_eq_false.mp clear row (Table.mem_of_find? found)
      exact seen (decide_eq_true state)
    have stands : Stands i False True (w1.unlisted .activate) := blind.stands
    cases raised with
    | nelix e =>
      exact fun w3 moves3 => steady_flipping _ w3 moves3 blind
    | _ => exact fun w3 moves3 => steady_stands _ w3 moves3 stands
  | @listed _ _ gens listed =>
    intro w3 moves3
    refine steady_flipping _ w3 moves3 ⟨⟨here.registry, here.operator⟩, fun none _ g active => ?_⟩
    obtain ⟨row, member, -, state⟩ := (active_iff_listed listed).mp active
    have shown : row ∈ Registry.activeRows gens := List.mem_filter.mpr ⟨member, by simp [state]⟩
    rw [List.head?_eq_none_iff.mp none] at shown
    cases shown

theorem proceeds_flip {old : Option GenerationRow} (flipping : Flipping i old w) :
    Proceeds admits i (fun _ => Stands i False True) (Operator.flip old gid) w := by
  cases old with
  | some row =>
    intro w1 moves1
    have here := steady_flipping w w1 moves1 flipping
    refine ⟨⟨here.stands.operator.mpr trivial, rfl, .inl ⟨rfl, rfl⟩⟩, fun answer w2 acts w3 moves3 =>
      steady_stands w2 w3 moves3 ?_⟩
    cases acts with
    | written => exact ⟨here.stands.registry, here.stands.operator⟩
    | unwritten => exact here.stands
    | outside out => cases out
  | none =>
    intro w1 moves1
    have here := steady_flipping w w1 moves1 flipping
    refine ⟨⟨here.stands.operator.mpr trivial, rfl, .inr ⟨rfl, here.none rfl⟩⟩,
      fun answer w2 acts w3 moves3 => steady_stands w2 w3 moves3 ?_⟩
    cases acts with
    | written => exact ⟨here.stands.registry, here.stands.operator⟩
    | unwritten => exact here.stands
    | outside out => cases out

theorem calm_healthCheck {transport epoch build : String} (tries : ℕ) :
    (Operator.healthCheck gid transport epoch build tries).Only Calm := by
  induction tries with
  | zero => exact .pure
  | succ tries ih =>
    refine .bind calm_checkHealthStrict fun healthy => ?_
    split
    · exact .pure
    · split
      · exact .pure
      · exact .bind (.perform trivial fun _ => .done) fun _ => ih

theorem calm_buried {epoch message : String} :
    (Operator.buried gid epoch message : GenRoutine α).Only Calm :=
  .bind (calm_write rfl) fun _ => .raise

theorem proceeds_flipAndAdopt {old : Option GenerationRow} {build epoch transport : String}
    {incarnation : Incarnation} (flipping : Flipping i old w) :
    Proceeds admits i (fun _ => Stands i False True)
      (Operator.flipAndAdopt old build gid epoch transport incarnation) w := by
  refine Setting.Safe.bind ((proceeds_flip flipping).mono fun r w here => ?_)
  cases r with
  | error x => exact here
  | ok flipped =>
    refine proceeds_first steady_stands ?_ here (fun _ _ here => here) fun updated w here => ?_
    · exact .rescue (.bind (.perform trivial fun _ => .done) fun _ => .pure) fun _ => .pure
    · refine Setting.Safe.bind ((proceeds_adoptGeneration _ here).mono fun r w here => ?_)
      cases r with
      | error x => exact here
      | ok adopted => exact fun w' moves => steady_stands w w' moves here

theorem proceeds_promote {old : Option GenerationRow} {build epoch transport : String}
    {incarnation : Option Incarnation} (flipping : Flipping i old w) :
    Proceeds admits i (fun _ => Stands i False True)
      (Operator.promote at_ old build gid epoch transport incarnation) w := by
  refine proceeds_first steady_flipping (calm_healthCheck _) flipping (fun _ _ here => here.stands)
    fun healthy w here => ?_
  split
  · refine proceeds_calm steady_stands ?_ here.stands
    dsimp only
    split
    · exact .bind calm_reapHolder fun _ => calm_buried
    · exact calm_buried
  · refine proceeds_first steady_flipping calm_liveLockHolder here (fun _ _ here => here.stands)
      fun holder w here => ?_
    split
    · exact proceeds_calm steady_stands (.bind calm_reapHolder fun _ => calm_buried) here.stands
    · refine proceeds_first steady_flipping ?_ here (fun _ _ here => here.stands)
        fun _ w here => proceeds_flipAndAdopt here
      exact only_exceptNelix (calm_write rfl) fun e =>
        .bind calm_reapHolder fun _ => .bind (calm_write rfl) fun _ => .raise

theorem proceeds_activateProbed {build : String} (stands : Stands i False True w) :
    Proceeds admits i (fun _ => Stands i False True) (Operator.activateProbed at_ build) w := by
  refine proceeds_first steady_stands (.perform trivial fun _ => .done) stands
    (fun _ _ here => here) fun clock w here => ?_
  refine Setting.Safe.bind ((proceeds_findOld here).mono fun r w found => ?_)
  cases r with
  | error x => exact found
  | ok old =>
    have ends : ∀ (x : Raised) (w : Topology), Flipping i old w → Stands i False True w :=
      fun _ _ here => here.stands
    refine proceeds_first steady_flipping (.perform trivial fun _ => .done) found ends
      fun gid w here => ?_
    refine proceeds_first steady_flipping (calm_write rfl) here ends fun _ w here => ?_
    refine proceeds_first steady_flipping (.perform trivial fun _ => .done) here ends
      fun epoch w here => ?_
    refine proceeds_first steady_flipping (calm_write rfl) here ends fun _ w here => ?_
    refine proceeds_first steady_flipping (only_supervise _) here ends fun _ w here => ?_
    refine proceeds_first steady_flipping (.perform trivial fun _ => .done) here ends
      fun _ w here => ?_
    refine proceeds_first steady_flipping ?_ here ends fun started w here => ?_
    · exact .rescue (.perform trivial fun _ => .done) fun raised => calm_buried
    · exact proceeds_promote here

theorem proceeds_activateLocked {build : String} (stands : Stands i False True w) :
    Proceeds admits i (fun _ => Stands i False True) (Operator.activateLocked at_ build) w := by
  refine proceeds_first steady_stands (.perform trivial fun _ => .done) stands
    (fun _ _ here => here) fun installed w here => ?_
  split
  · exact fun w' moves => steady_stands w w' moves here
  · have probe : Proceeds admits i (fun _ => Stands i False True)
        (exceptNelix (do
          let a ← Registry.active at_
          pure (some a)) fun _ => pure none) w := by
      refine Setting.Safe.rescue ?_
      refine Setting.Safe.bind ((proceeds_active here).mono fun r w here => ?_)
      match r with
      | .ok a => exact fun w' moves => steady_stands w w' moves here
      | .error (.nelix e) => exact fun w' moves => steady_stands w w' moves here
      | .error .typeError | .error .attributeError | .error .valueError | .error .overflowError
      | .error (.runtimeError _) => exact fun w' moves => steady_stands w w' moves here
    refine Setting.Safe.bind (probe.mono fun r w here => ?_)
    cases r with
    | error x => exact here
    | ok current =>
      dsimp only [Setting.After]
      split
      · exact fun w' moves => steady_stands w w' moves here
      · exact proceeds_activateProbed here

theorem proceeds_activate {build : String} (stands : Stands i False False w) :
    Proceeds admits i (fun _ => Stands i False False) (Operator.activate at_ build) w := by
  unfold Operator.activate
  split
  · exact fun w' moves => steady_stands w w' moves stands
  · intro w1 moves1
    have here := steady_stands w w1 moves1 stands
    refine ⟨trivial, fun answer w2 acts => ?_⟩
    cases acts with
    | outside out => cases out
    | refused raised => exact fun w3 moves3 => steady_stands _ w3 moves3 here
    | begun free =>
      have begun : Stands i False True { w1 with operatorLock := some i } :=
        ⟨here.registry, by simp⟩
      refine Setting.Safe.ensure ((proceeds_activateLocked begun).mono fun r w here w3 moves3 => ?_)
      have there := steady_stands w w3 moves3 here
      refine ⟨there.operator.mpr trivial, fun _ w4 acts w5 moves5 => ?_⟩
      cases acts with
      | outside out => cases out
      | ended => exact steady_stands _ w5 moves5 ⟨there.registry, by simp⟩

/-! ### Runs -/

theorem topologyCrew_sound :
    (topologyCrew at_ Sighted).Sound Single TopologyPermits (fun i _ => Stands i False False)
      (fun i => Stands i False False) where
  keeps i e w r w' single permits acts := TopologyActs.keeps single permits acts
  spares i j e w r w' other _ permits acts := TopologyActs.relies permits acts other
  aside w w' single moves := by
    obtain ⟨call, db', done, same, rfl⟩ := moves
    have still : Still w { w with db := db' } :=
      ⟨rfl, rfl, rfl, rfl, fun g there => Call.lifecycle_stays done there, same⟩
    exact ⟨still.single single, still.relies⟩
  enters i p w enters _ idle := by
    rcases enters with rfl | ⟨build, rfl⟩
    · refine Setting.Safe.bind ((proceeds_active idle).mono fun r w here => ?_)
      cases r with
      | ok a => exact fun w' moves => steady_stands w w' moves here
      | error x => exact here
    · refine Setting.Safe.bind ((proceeds_activate idle).mono fun r w here => ?_)
      cases r with
      | ok a => exact fun w' moves => steady_stands w w' moves here
      | error x => exact here
  waits i w w' idle moves := steady_stands w w' moves idle

/-- A write past an active generation that a listing did not show leaves two of them. -/
theorem Single.unsighted {call : Call} {db' : Db} (single : Single w)
    (permits : TopologyPermits i (.write call) w) (done : call.apply w.db = .ok db')
    (unsighted : ¬ Sighted call w) : ¬ db'.OneActive := by
  intro one
  rcases permitted_cases permits with calm | ⟨g, build, snapshot, created, rfl⟩ |
    ⟨old, new, moved, fromOld, fromNew, rfl⟩
  · refine unsighted ?_
    cases call with
    | createGeneration _ _ state =>
      cases state with
      | active => cases calm
      | _ => trivial
    | setGenerationLifecycleStateAtomic => cases calm
    | _ => trivial
  · obtain ⟨fresh, active⟩ := active_created done
    obtain ⟨g', here⟩ := single.missed (.inr (Bool.not_eq_false _ ▸ unsighted))
    have same := one g' g ((active g').mpr (.inr here)) ((active g).mpr (.inl rfl))
    rw [Db.Active, same, fresh] at here
    cases here
  · obtain ⟨wasOld, wasNew, active⟩ := active_flipped done
    obtain ⟨-, rfl, -⟩ := permits
    simp only [Sighted, Classical.not_imp, Bool.not_eq_false] at unsighted
    obtain ⟨rfl, blind⟩ := unsighted
    obtain ⟨g', here⟩ := single.missed (.inl blind)
    have other : g' ≠ old := by
      rintro rfl
      rw [Db.Active, wasNew] at here
      cases here
    have kept : db'.Active g' := (active g').mpr (.inr (by rwa [if_neg other]))
    exact other (one g' old kept ((active old).mpr (.inl rfl)))

/-- In every run of requests and activations where no write goes past an active generation that a
listing did not show, at most one generation is active; and the next write of a thread keeps it so
exactly when it does not go past one either. -/
theorem one_active (at_ : Deployment) (db : Db) (cell : Cell) (one : db.OneActive)
    {pool : Pool ℕ GenEffect GenEffect.Answer Raised Unit Topology}
    (reached : (topologyCrew at_ Sighted).Reaches { db := db, cell := cell } pool) :
    pool.world.db.OneActive ∧
      ∀ i call next db', pool.threads i = some (.perform (.write call) next) →
        call.apply pool.world.db = .ok db' → (db'.OneActive ↔ Sighted call pool.world) := by
  have start : Single { db := db, cell := cell } :=
    ⟨one, fun blind => by rcases blind with blind | blind <;> cases blind⟩
  have quiet (i : ℕ) : Stands i False False { db := db, cell := cell } := ⟨by simp, by simp⟩
  obtain ⟨single, held⟩ := topologyCrew_sound.reaches start quiet reached
  refine ⟨single.one, fun i call next db' here done => ⟨fun still => ?_, fun sighted => ?_⟩⟩
  all_goals
    have safe := held i
    rw [here] at safe
    have permits := (safe pool.world (.refl i _)).1
  · by_contra unsighted
    exact single.unsighted permits done unsighted still
  · exact (TopologyActs.keeps single permits (.written done sighted)).one

/-! ### An activation whose listing fails -/

def servedCell : Cell where
  active := some ⟨⟨11, none⟩, firstEpoch, sampleGeneration, "/g.sock", some "build-1"⟩
  generationId := some sampleGeneration

/-- Everything goes well, but for the activation's listing where it is to fail. -/
def sampleAnswer (listingFails : Bool) (e : GenEffect) (w : Topology) : e.Answer × Topology :=
  match e with
  | .listGenerations path =>
    if listingFails = true ∧ path = .activate then
      (.error (.nelix ⟨.storeUnavailable, "database is unavailable"⟩), w.unlisted path)
    else
      match w.db.listGenerations with
      | .ok gens => (.ok gens, w.listed path)
      | .error raised => (.error raised, w.unlisted path)
  | .ask query =>
    match w.db.answer query with
    | .ok value => (.ok value, w)
    | .error raised => (.error raised, w)
  | .write call =>
    match call.apply w.db with
    | .ok db' => (.ok (), w.written call db')
    | .error raised => (.error raised, w)
  | .newGenerationId => (secondEpoch, w)
  | .time => (.finite 2, w)
  | .lockRegistry => ((), { w with registryLock := some 0 })
  | .unlockRegistry => ((), { w with registryLock := none })
  | .lockOperator => (.ok (), { w with operatorLock := some 0 })
  | .unlockOperator => ((), { w with operatorLock := none })
  | .readCell => (w.cell, w)
  | .remember g => ((), { w with cell := { w.cell with generationId := some g } })
  | .refresh transport incarnation =>
    ((), { w with cell := { w.cell with active := w.cell.active.map fun a =>
      { a with transport := transport, incarnation := incarnation } } })
  | .install adopted bump =>
    ((), { w with cell := { w.cell with
      active := some adopted
      topologyRevision := w.cell.topologyRevision + if bump then 1 else 0 } })
  | .generationDirs => (none, w)
  | .isInstalled _ => (.ok true, w)
  | .runtimeActive => (.ok none, w)
  | .runtimeActivate _ => (.ok (), w)
  | .ensureDirs _ => (.ok (), w)
  | .ensureRunning .. => (.ok (some ⟨11, none⟩, "/g.sock"), w)
  | .liveLockHolder _ => (.ok (some ⟨⟨11, none⟩, some "/g.sock"⟩), w)
  | .endpoint .. => (.ok none, w)
  | .checkHealth .. => (.ok true, w)
  | .healthIdentity .. => (.ok none, w)
  | .checkHealthStrict .. => (.ok true, w)
  | .reapHolder .. => (.ok true, w)
  | .sleep => ((), w)

/-- The locks are taken where they are free, and the writes are let through. -/
def sampleOk (admits : Call → Topology → Bool) (e : GenEffect) (w : Topology) : Bool :=
  match e with
  | .lockRegistry => w.registryLock = none
  | .lockOperator => w.operatorLock = none
  | .write call => admits call w
  | _ => true

theorem sampleAnswer_acts {listingFails : Bool} {admitted : Call → Topology → Bool}
    (decides : ∀ call w, admitted call w = true → admits call w) (e : GenEffect) (w : Topology)
    (ok : sampleOk admitted e w = true) :
    TopologyActs admits 0 e w (sampleAnswer listingFails e w).1 (sampleAnswer listingFails e w).2 := by
  cases e with
  | listGenerations path =>
    simp only [sampleAnswer]
    split
    · exact .unlisted _
    · split
      · rename_i read
        exact .listed read
      · exact .unlisted _
  | ask query =>
    simp only [sampleAnswer]
    split
    · rename_i read
      exact .read read
    · exact .unread _
  | write call =>
    simp only [sampleAnswer]
    split
    · rename_i done
      exact .written done (decides call w ok)
    · exact .unwritten _
  | lockRegistry => exact .locked (of_decide_eq_true ok)
  | lockOperator => exact .begun (of_decide_eq_true ok)
  | unlockRegistry => exact .unlocked
  | unlockOperator => exact .ended
  | readCell => exact .cell
  | remember => exact .remembered
  | refresh => exact .refreshed
  | install => exact .installed
  | _ => exact .outside rfl _

/-- The activation after its last effect. -/
def sampleRun (listingFails : Bool) : GenRoutine Unit × Topology :=
  (do
    let _ ← Operator.activate sampleDeployment "build-2"
    pure ()).advance (sampleAnswer listingFails) 60 { db := servedStore, cell := servedCell }

/-- The activation has made all its steps. -/
theorem sampleRun_reaches (listingFails : Bool) (admitted : Call → Topology → Bool)
    (decides : ∀ call w, admitted call w = true → admits call w)
    (complies : (do
      let _ ← Operator.activate sampleDeployment "build-2"
      pure () : GenRoutine Unit).complies (sampleAnswer listingFails) (sampleOk admitted) 60
        { db := servedStore, cell := servedCell } = true) :
    (topologyCrew sampleDeployment admits).Reaches { db := servedStore, cell := servedCell }
      ⟨Function.update (fun _ => none) 0 (some (sampleRun listingFails).1),
        (sampleRun listingFails).2⟩ := by
  have entered : (topologyCrew sampleDeployment admits).Step
      ⟨fun _ => none, { db := servedStore, cell := servedCell }⟩
      ⟨Function.update (fun _ => none) 0 (some do
        let _ ← Operator.activate sampleDeployment "build-2"
        pure ()), { db := servedStore, cell := servedCell }⟩ :=
    .enter rfl (.inr ⟨"build-2", rfl⟩)
  exact .head entered (Crew.steps_advance (sampleAnswer_acts decides) complies)

theorem servedStore_one : servedStore.OneActive := by
  intro g g' active active'
  have only : ∀ g, servedStore.Active g → g = sampleGeneration := by
    intro g active
    obtain ⟨row, found, -⟩ := Option.map_eq_some_iff.mp active
    have rows : servedStore.generations.rows.map (·.generationId) = [sampleGeneration] := by
      decide +kernel
    have member := List.mem_map_of_mem (f := (·.generationId)) (Table.mem_of_find? found)
    rw [rows, List.mem_singleton] at member
    exact (Db.generationId_of_findGeneration found).symm.trans member
  exact (only g active).trans (only g' active').symm

/-- The calls that `Sighted` lets through. -/
def sighted (call : Call) (w : Topology) : Bool :=
  match call with
  | .setGenerationLifecycleStateAtomic old new _ _ _ => old ≠ new || w.flipBlind = false
  | .createGeneration _ _ .active _ _ => w.mintBlind = false
  | _ => true

theorem sighted_sound (call : Call) (w : Topology) (ok : sighted call w = true) :
    Sighted call w := by
  cases call with
  | createGeneration _ _ state =>
    cases state with
    | active => exact (of_decide_eq_true ok : w.mintBlind = false)
    | _ => trivial
  | setGenerationLifecycleStateAtomic old new => simpa [sighted, Sighted, imp_iff_not_or] using ok
  | _ => trivial

/-- The activation saw the generation and drained it. -/
theorem one_active_drained :
    (sampleRun false).2.db.OneActive ∧ (sampleRun false).2.db.Active secondEpoch :=
  ⟨(one_active sampleDeployment servedStore servedCell servedStore_one
    (sampleRun_reaches false sighted sighted_sound (by decide +kernel))).1, by decide +kernel⟩

/-- The activation flipped alone: the generation it did not see is active beside its own. -/
theorem one_active_unlisted :
    ∃ pool, (topologyCrew sampleDeployment fun _ _ => True).Reaches
        { db := servedStore, cell := servedCell } pool ∧ ¬ pool.world.db.OneActive := by
  refine ⟨_, sampleRun_reaches true (fun _ _ => true) (fun _ _ _ => trivial) (by decide +kernel),
    fun one => ?_⟩
  have both : (sampleRun true).2.db.Active sampleGeneration ∧
      (sampleRun true).2.db.Active secondEpoch := by decide +kernel
  exact absurd (one _ _ both.1 both.2) (by decide)

end Nelix.Router
