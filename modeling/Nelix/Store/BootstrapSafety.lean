import Nelix.Store.Bootstrap

/-!
# Openers side by side

Openers of any builds on one file, any of which may be killed at any time. Each knows under the lock
what the file holds, what is in its own transaction, and whether it has written.

## Main results

`bootstraps_safe`: a build runs its schema only on a file stamped with its own version, an open that
the version gate refuses has written nothing, and one that succeeds leaves its whole schema.
-/
namespace Nelix.Store

open Contracts Core

/-! ### What an opener relies on -/

/-- Nothing that was written is lost. -/
structure File.Grows (f f' : File) : Prop where
  wal : f.wal = true → f'.wal = true
  stamp : ∀ v, f.stamp = some v → f'.stamp = some v
  objects : ∀ n d, f.objects n = some d → f'.objects n = some d

theorem File.Grows.refl (f : File) : f.Grows f := ⟨id, fun _ => id, fun _ _ => id⟩

theorem File.Grows.trans {f g h : File} (first : f.Grows g) (second : g.Grows h) : f.Grows h :=
  ⟨second.wal ∘ first.wal, fun v held => second.stamp v (first.stamp v held),
    fun n d held => second.objects n d (first.objects n d held)⟩

/-- What holds of the disk at any time. An open transaction is about the stamp alone. -/
structure Kept (builds : ℕ → Build) (d : Disk) : Prop where
  wal : ∀ v, d.file.stamp = some v → d.file.wal = true
  stamped : d.file.metaTable = d.file.stamp.map some
  marked : ∀ v, d.file.stamp = some v → ∃ j, v = (builds j).mark
  objects : ∀ n df, d.file.objects n = some df →
    ∃ j, d.file.stamp = some (builds j).mark ∧ .object n df ∈ (builds j).schema
  pending : ∀ j f, d.pending = some (j, f) → d.file.Grows f ∧ f.objects = d.file.objects ∧
    (f.stamp = d.file.stamp ∨ f.stamp = some (builds j).mark)

/-- How the others may move the disk under an opener. -/
structure Spared (builds : ℕ → Build) (i : ℕ) (d d' : Disk) : Prop where
  kept : Kept builds d → Kept builds d'
  gone : d'.dead i = false → d.dead i = false
  lock : d'.dead i = false → (d'.lock = some i ↔ d.lock = some i)
  own : d'.dead i = false → d'.own i = d.own i
  held : d'.dead i = false → d.lock = some i → d'.file = d.file
  wrote : d'.wrote i = d.wrote i
  grows : d.file.Grows d'.file

variable (builds : ℕ → Build) {i : ℕ}

theorem Spared.refl (i : ℕ) (d : Disk) : Spared builds i d d :=
  ⟨id, id, fun _ => Iff.rfl, fun _ => rfl, fun _ _ => rfl, rfl, .refl _⟩

variable {builds}

theorem Spared.trans {d d' d'' : Disk} (first : Spared builds i d d')
    (second : Spared builds i d' d'') : Spared builds i d d'' where
  kept := second.kept ∘ first.kept
  gone alive := first.gone (second.gone alive)
  lock alive := (second.lock alive).trans (first.lock (second.gone alive))
  own alive := (second.own alive).trans (first.own (second.gone alive))
  held alive locked :=
    (second.held alive ((first.lock (second.gone alive)).mpr locked)).trans
      (first.held (second.gone alive) locked)
  wrote := second.wrote.trans first.wrote
  grows := first.grows.trans second.grows

variable (builds)

def openSetting (i : ℕ) : Setting OpenCall OpenCall.Answer Disk where
  rely := Spared builds i
  act := Acts i
  refl := Spared.refl builds i
  trans := Spared.trans

/-- Openers of any builds, any of which may be killed at any time. -/
def openCrew (reader : StampReader) : Crew ℕ OpenCall OpenCall.Answer Thrown Unit Disk where
  setting := openSetting builds
  aside d d' := ∃ i, d' = d.kill i
  enters i p := p = connect reader (builds i)

/-! ### What an opener may do -/

/-- When a statement may be run by the opener `i`, with a build `b`. -/
def Permitted (b : Build) (i : ℕ) (d : Disk) : OpenCall → Prop
  | .enableWal => d.lock = some i ∧ d.own i = none ∧ d.file.stamp = none
  | .beginImmediate => d.lock = some i ∧ (d.file.stamp = none ∨ d.file.stamp = some b.mark)
  | .createMeta => d.lock = some i ∧ (d.own i).isSome = true ∧
      (d.file.stamp = none ∨ d.file.stamp = some b.mark)
  | .insertStamp value => d.lock = some i ∧ value = b.mark ∧
      (d.file.stamp = some b.mark ∨ d.file.stamp = none ∧ (d.own i).isSome = true)
  | .createObject name definition => d.lock = some i ∧ d.own i = none ∧
      d.file.stamp = some b.mark ∧ .object name definition ∈ b.schema
  | .commit => d.lock = some i ∧ (d.file.stamp = none ∨ d.file.stamp = some b.mark) ∧
      d.file.wal = true ∧ ∃ f, d.own i = some f ∧ f.metaTable = some (some b.mark)
  | _ => True

def allowed (i : ℕ) (e : OpenCall) (d : Disk) : Prop :=
  d.dead i = false → Permitted (builds i) i d e

variable {builds} {d d' : Disk}

theorem Disk.own_eq_none : d.own i = none ↔ ∀ f, d.pending ≠ some (i, f) := by
  simp only [Option.eq_none_iff_forall_not_mem, Option.mem_def, own_eq_some, ne_eq]

theorem Disk.own_inj {f g : File} (own : d.own i = some f) (pending : d.pending = some (i, g)) :
    f = g := by
  rw [own_eq_some.mpr pending, Option.some.injEq] at own
  exact own.symm

theorem Disk.own_drop_self : (d.drop i).own i = none := by
  rw [own, drop]
  rcases d.pending with _ | ⟨k, g⟩
  · rfl
  · by_cases mine : k = i <;> simp [Option.filter, mine]

theorem Disk.own_drop_ne {j : ℕ} (other : j ≠ i) : (d.drop i).own j = d.own j := by
  rw [own, own, drop]
  rcases d.pending with _ | ⟨k, g⟩
  · rfl
  · by_cases mine : k = i
    · subst mine
      simp [Option.filter, Ne.symm other]
    · simp [Option.filter, mine]

theorem Disk.pending_of_drop {j : ℕ} {f : File} (held : (d.drop i).pending = some (j, f)) :
    d.pending = some (j, f) := by
  rw [drop, Option.filter_eq_some_iff] at held
  exact held.1

theorem File.stamp_insertStamp (f : File) (value : String) :
    (f.insertStamp value).stamp = f.metaTable.map fun stamp => stamp.getD value := by
  rcases f with ⟨_, _ | _ | _, _⟩ <;> rfl

theorem File.insertStamp_stamped {f : File} {v : String} (held : f.stamp = some v) (value : String) :
    f.insertStamp value = f := by
  rcases f with ⟨wal, _ | _ | w, objects⟩
  · cases held
  · cases held
  · rfl

theorem File.createObject_same (f : File) (n df : String) :
    (f.createObject n df).objects n = some ((f.objects n).getD df) := Function.update_self ..

theorem File.createObject_ne (f : File) {n m : String} (df : String) (other : m ≠ n) :
    (f.createObject n df).objects m = f.objects m := Function.update_of_ne other ..

theorem File.grows_createObject (f : File) (n df : String) : f.Grows (f.createObject n df) := by
  refine ⟨id, fun _ => id, fun m held found => ?_⟩
  by_cases same : m = n
  · subst same
    rw [File.createObject_same, found, Option.getD_some]
  · rw [File.createObject_ne f df same, found]

theorem File.grows_insertStamp (f : File) (value : String) : f.Grows (f.insertStamp value) :=
  ⟨id, fun v held => by rw [File.insertStamp_stamped held, held], fun _ _ => id⟩

/-! ### What a statement leaves -/

theorem Kept.of_same (kept : Kept builds d) (file : d'.file = d.file)
    (pending : ∀ j f, d'.pending = some (j, f) → d.pending = some (j, f)) : Kept builds d' where
  wal := file ▸ kept.wal
  stamped := file ▸ kept.stamped
  marked := file ▸ kept.marked
  objects := file ▸ kept.objects
  pending j f held := file ▸ kept.pending j f (pending j f held)

theorem Kept.of_stamp (kept : Kept builds d) (stamp : d'.file.stamp = d.file.stamp)
    (stamped : d'.file.metaTable = d'.file.stamp.map some)
    (wal : d.file.wal = true → d'.file.wal = true)
    (objects : ∀ n df, d'.file.objects n = some df → d.file.objects n = some df ∨
      ∃ j, d.file.stamp = some (builds j).mark ∧ .object n df ∈ (builds j).schema)
    (pending : d'.pending = none) : Kept builds d' := by
  refine ⟨fun v held => wal (kept.wal v (stamp ▸ held)), stamped,
    fun v held => kept.marked v (stamp ▸ held), fun n df found => ?_,
    fun j f held => by rw [pending] at held; cases held⟩
  rw [stamp]
  rcases objects n df found with before | new
  · exact kept.objects n df before
  · exact new

/-- A permitted write leaves the disk as it should be. -/
theorem Kept.writes {e : OpenCall} {f : File → File} (kept : Kept builds d)
    (permitted : Permitted (builds i) i d e) (about : e.effect = some f) (writes : Writes i f d d') :
    Kept builds d' := by
  cases e with
  | enableWal =>
    cases about
    obtain ⟨-, free, -⟩ := permitted
    cases writes with
    | inside mine => exact absurd mine (Disk.own_eq_none.mp free _)
    | atOnce none =>
      exact kept.of_stamp rfl kept.stamped (fun _ => rfl) (fun _ _ found => .inl found) none
  | createMeta =>
    cases about
    obtain ⟨-, open_, -⟩ := permitted
    cases writes with
    | @inside p mine =>
      obtain ⟨grows, objects, stamp⟩ := kept.pending i p mine
      refine ⟨kept.wal, kept.stamped, kept.marked, kept.objects, fun j g held => ?_⟩
      simp only [Option.some.injEq, Prod.mk.injEq] at held
      obtain ⟨rfl, rfl⟩ := held
      exact ⟨⟨grows.wal, fun v held => grows.stamp v held, grows.objects⟩, objects, stamp⟩
    | atOnce none => simp [Disk.own, none] at open_
  | insertStamp value =>
    cases about
    obtain ⟨-, rfl, ours⟩ := permitted
    cases writes with
    | @inside p mine =>
      obtain ⟨grows, objects, stamp⟩ := kept.pending i p mine
      refine ⟨kept.wal, kept.stamped, kept.marked, kept.objects, fun j g held => ?_⟩
      simp only [Option.some.injEq, Prod.mk.injEq] at held
      obtain ⟨rfl, rfl⟩ := held
      refine ⟨grows.trans (File.grows_insertStamp p _), objects, ?_⟩
      rw [File.stamp_insertStamp]
      rcases p with ⟨_, _ | _ | w, _⟩
      · exact stamp
      · exact .inr rfl
      · exact stamp
    | atOnce none =>
      have stamped : d.file.stamp = some (builds i).mark := by
        rcases ours with stamped | ⟨-, open_⟩
        · exact stamped
        · simp [Disk.own, none] at open_
      exact kept.of_same (File.insertStamp_stamped stamped _) fun j f held => held
  | createObject n df =>
    cases about
    obtain ⟨-, free, stamped, inside⟩ := permitted
    cases writes with
    | inside mine => exact absurd mine (Disk.own_eq_none.mp free _)
    | atOnce none =>
      refine kept.of_stamp rfl kept.stamped id (fun m dm found => ?_) none
      by_cases same : m = n
      · subst same
        rw [File.createObject_same, Option.some.injEq] at found
        cases before : d.file.objects m with
        | some held =>
          rw [before, Option.getD_some] at found
          exact .inl (congrArg some found)
        | none =>
          rw [before, Option.getD_none] at found
          exact .inr ⟨i, stamped, found ▸ inside⟩
      · rw [File.createObject_ne _ df same] at found
        exact .inl found
  | _ => cases about

theorem Kept.acts {e : OpenCall} {r : e.Answer} (kept : Kept builds d)
    (permitted : Permitted (builds i) i d e) (acts : Acts i e d r d') : Kept builds d' := by
  cases acts with
  | fails | quiet | lockFile | unlock | journalMode | refusesWal | hasMeta | readStamp =>
    exact kept.of_same rfl fun _ _ held => held
  | aborts | rollback | close => exact kept.of_same rfl fun _ _ held => Disk.pending_of_drop held
  | late _ _ about writes | writes _ _ about writes =>
    exact (kept.writes permitted about writes).of_same rfl fun _ _ held => held
  | beginImmediate alive free =>
    refine ⟨kept.wal, kept.stamped, kept.marked, kept.objects, fun j f held => ?_⟩
    simp only [Disk.touch, Option.some.injEq, Prod.mk.injEq] at held
    obtain ⟨rfl, rfl⟩ := held
    exact ⟨.refl _, rfl, .inl rfl⟩
  | @commit _ f r alive mine =>
    obtain ⟨-, -, wal, g, own, table⟩ := permitted
    obtain rfl : g = f := Disk.own_inj own mine
    obtain ⟨grows, objects, stamp⟩ := kept.pending i g mine
    have stamp : g.stamp = some (builds i).mark := by rw [File.stamp, table]; rfl
    refine ⟨fun _ _ => grows.wal wal, by simp [Disk.touch, stamp, table],
      fun v held => ⟨i, ?_⟩, fun n df found => ?_, fun j f held => by cases held⟩
    · exact (Option.some.inj (stamp.symm.trans held)).symm
    · change g.objects n = some df at found
      rw [objects] at found
      obtain ⟨j, before, inside⟩ := kept.objects n df found
      exact ⟨j, grows.stamp _ before, inside⟩

/-- A write touches no other transaction, and the file only under the lock. -/
theorem Writes.spares {e : OpenCall} {f : File → File} {j : ℕ} (other : j ≠ i)
    (permitted : Permitted (builds i) i d e) (about : e.effect = some f) (writes : Writes i f d d') :
    d'.own j = d.own j ∧ (d.lock = some j → d'.file = d.file) ∧ d.file.Grows d'.file := by
  have locked : d.lock = some i := by
    cases e with
    | enableWal | createMeta | insertStamp | createObject => exact permitted.1
    | _ => cases about
  cases writes with
  | inside mine => exact ⟨by simp [Disk.own, mine, Option.filter, Ne.symm other], fun _ => rfl, .refl _⟩
  | atOnce free =>
    refine ⟨rfl, fun theirs => ?_, ?_⟩
    · rw [locked, Option.some.injEq] at theirs
      exact absurd theirs.symm other
    · cases e with
      | enableWal =>
        cases about
        exact ⟨fun _ => rfl, fun _ => id, fun _ _ => id⟩
      | createMeta =>
        cases about
        exact ⟨id, fun _ => id, fun _ _ => id⟩
      | insertStamp value =>
        cases about
        exact File.grows_insertStamp _ _
      | createObject n df =>
        cases about
        exact File.grows_createObject _ _ _
      | _ => cases about

theorem Writes.rest {f : File → File} (writes : Writes i f d d') :
    d'.lock = d.lock ∧ d'.dead = d.dead ∧ d'.wrote = d.wrote := by
  cases writes <;> exact ⟨rfl, rfl, rfl⟩

theorem Disk.wrote_touch_ne {e : OpenCall} {j : ℕ} (other : j ≠ i) :
    (d.touch i e).wrote j = d.wrote j := Function.update_of_ne other ..

/-- What one opener does, the others are spared. -/
theorem spared_of_acts {e : OpenCall} {r : e.Answer} {j : ℕ} (other : j ≠ i) (kept : Kept builds d)
    (permitted : Permitted (builds i) i d e) (acts : Acts i e d r d') : Spared builds j d d' := by
  have kept' : Kept builds d → Kept builds d' := fun _ => kept.acts permitted acts
  cases acts with
  | fails | refusesWal =>
    exact ⟨kept', id, fun _ => Iff.rfl, fun _ => rfl, fun _ _ => rfl, Disk.wrote_touch_ne other,
      .refl _⟩
  | aborts =>
    exact ⟨kept', id, fun _ => Iff.rfl, fun _ => Disk.own_drop_ne other, fun _ _ => rfl,
      Disk.wrote_touch_ne other, .refl _⟩
  | late _ _ about writes | writes _ _ about writes =>
    obtain ⟨own, held, grows⟩ := writes.spares other permitted about
    obtain ⟨lock, dead, wrote⟩ := writes.rest
    refine ⟨kept', fun alive => ?_, fun _ => ?_, fun _ => own, fun _ => held, ?_, grows⟩
    · exact dead ▸ alive
    · rw [← lock]
      exact Iff.rfl
    · rw [Disk.wrote_touch_ne other, wrote]
  | quiet | journalMode | hasMeta | readStamp => exact .refl builds j d
  | lockFile alive free =>
    refine ⟨kept', id, fun _ => ?_, fun _ => rfl, fun _ _ => rfl, rfl, .refl _⟩
    simp [free, Ne.symm other]
  | unlock =>
    refine ⟨kept', id, fun _ => ?_, fun _ => rfl, fun _ _ => rfl, rfl, .refl _⟩
    rw [Disk.unlock, Option.filter_eq_some_iff]
    simp [other]
  | beginImmediate alive free =>
    refine ⟨kept', id, fun _ => Iff.rfl, fun _ => ?_, fun _ _ => rfl, Disk.wrote_touch_ne other,
      .refl _⟩
    simp [Disk.own, Disk.touch, free, Option.filter, Ne.symm other]
  | rollback | close =>
    exact ⟨kept', id, fun _ => Iff.rfl, fun _ => Disk.own_drop_ne other, fun _ _ => rfl, rfl, .refl _⟩
  | @commit _ f r alive mine =>
    refine ⟨kept', id, fun _ => Iff.rfl, fun _ => ?_, fun _ locked => ?_, Disk.wrote_touch_ne other,
      (kept.pending i f mine).1⟩
    · simp [Disk.own, Disk.touch, mine, Option.filter, Ne.symm other]
    · rw [permitted.1, Option.some.injEq] at locked
      exact absurd locked.symm other

/-- A kill touches only the killed. -/
theorem spared_of_kill (i j : ℕ) (d : Disk) : Spared builds j d (d.kill i) := by
  refine ⟨fun kept => kept.of_same rfl fun _ _ held => Disk.pending_of_drop held, fun alive => ?_,
    fun alive => ?_, fun alive => ?_, fun _ _ => rfl, rfl, .refl _⟩
  all_goals
    have other : j ≠ i := by
      rintro rfl
      simp [Disk.kill] at alive
  · simpa [Disk.kill, Function.update_of_ne other] using alive
  · rw [Disk.kill, Disk.drop, Disk.unlock, Option.filter_eq_some_iff]
    simp [other]
  · exact Disk.own_drop_ne other

theorem Acts.alive {e : OpenCall} {r : e.Answer} (acts : Acts i e d r d') : d.dead i = false := by
  cases acts <;> assumption

theorem OpenCall.Quiet.permitted {e : OpenCall} {b : Build} (quiet : e.Quiet) : Permitted b i d e := by
  cases e with
  | prepareRoot | connect | pragma => exact trivial
  | _ => cases quiet

theorem Acts.quiet_ok {e : OpenCall} {v : e.Value} (acts : Acts i e d (.ok v) d') (quiet : e.Quiet) :
    d' = d := by
  cases e with
  | prepareRoot | connect | pragma =>
    cases acts with
    | quiet => rfl
    | writes _ _ about => cases about
  | _ => cases quiet

/-! ### One opener -/

/-- What an opener under the lock knows of the file, of its transaction, and of its own writes. -/
structure At (builds : ℕ → Build) (i : ℕ) (P : File → Option File → Bool → Prop) (d : Disk) :
    Prop where
  kept : Kept builds d
  here : d.dead i = false → d.lock = some i ∧ P d.file (d.own i) (d.wrote i)

variable {P Q : File → Option File → Bool → Prop}

theorem At.later (at_ : At builds i P d) (moves : Spared builds i d d') : At builds i P d' := by
  refine ⟨moves.kept at_.kept, fun alive => ?_⟩
  obtain ⟨locked, holds⟩ := at_.here (moves.gone alive)
  refine ⟨(moves.lock alive).mpr locked, ?_⟩
  rwa [moves.held alive locked, moves.own alive, moves.wrote]

/-- What has to hold where an exception is under way: the version gate has written nothing, and a
transaction is open only where the connection will be closed. -/
structure Fails (i : ℕ) (x : Thrown) (d : Disk) : Prop where
  clean : (∃ error, x.fault = .version error) → d.wrote i = false
  own : x.Closes ∨ (d.dead i = false → d.own i = none)

theorem Fails.later {x : Thrown} (fails : Fails i x d) (moves : Spared builds i d d') :
    Fails i x d' where
  clean gated := moves.wrote.trans (fails.clean gated)
  own := fails.own.imp_right fun free alive => (moves.own alive).trans (free (moves.gone alive))

theorem Fails.of_call {fault : CallFault} : Fails i ⟨.call fault, true⟩ d where
  clean gated := by
    obtain ⟨error, gated⟩ := gated
    cases gated
  own := .inl ⟨by rintro ⟨⟩, rfl⟩

/-- What a step under the lock ends in. -/
def Leaves (builds : ℕ → Build) (i : ℕ) (P : File → Option File → Bool → Prop) :
    Except Thrown Unit → Disk → Prop
  | .ok _, d => At builds i P d
  | .error x, d => Fails i x d

theorem Leaves.later {r : Except Thrown Unit} (leaves : Leaves builds i P r d)
    (moves : Spared builds i d d') : Leaves builds i P r d' := by
  cases r with
  | ok _ => exact At.later leaves moves
  | error x => exact Fails.later leaves moves

theorem safe_raise {x : Thrown} (fails : Fails i x d) :
    (openSetting builds i).Safe (allowed builds i) (Leaves builds i P) (Prog.raise x) d :=
  fun _ moves => fails.later moves

theorem safe_pure (at_ : At builds i P d) :
    (openSetting builds i).Safe (allowed builds i) (Leaves builds i P) (pure ()) d :=
  fun _ moves => at_.later moves

/-- One call under the lock: it is permitted, and the rest goes on from what it leaves. -/
theorem safe_call {e : OpenCall} {next : e.Value → OpenProg Unit} (start : At builds i P d)
    (permits : ∀ d, Kept builds d → d.lock = some i → P d.file (d.own i) (d.wrote i) →
      Permitted (builds i) i d e)
    (goesOn : ∀ v d d', Kept builds d → d.lock = some i → P d.file (d.own i) (d.wrote i) →
      Acts i e d (.ok v) d' → Kept builds d' →
      (openSetting builds i).Safe (allowed builds i) (Leaves builds i Q) (next v) d') :
    (openSetting builds i).Safe (allowed builds i) (Leaves builds i Q)
      (call true e >>= next) d := by
  intro d₁ moves
  have at_ := start.later moves
  refine ⟨fun alive => permits d₁ at_.kept (at_.here alive).1 (at_.here alive).2, fun r d₂ acts => ?_⟩
  obtain ⟨locked, holds⟩ := at_.here acts.alive
  have kept := at_.kept.acts (permits d₁ at_.kept locked holds) acts
  cases r with
  | ok v => exact goesOn v d₁ d₂ at_.kept locked holds acts kept
  | error x => exact safe_raise .of_call

/-- A call that leaves everything as it is. -/
theorem safe_quiet {e : OpenCall} {next : e.Value → OpenProg Unit} (quiet : e.Quiet)
    (start : At builds i P d)
    (goesOn : ∀ v d, At builds i P d →
      (openSetting builds i).Safe (allowed builds i) (Leaves builds i Q) (next v) d) :
    (openSetting builds i).Safe (allowed builds i) (Leaves builds i Q)
      (call true e >>= next) d := by
  refine safe_call start (fun _ _ _ _ => quiet.permitted) fun v d d' kept locked holds acts kept' => ?_
  have same : d' = d := acts.quiet_ok quiet
  exact goesOn v d' ⟨kept', fun _ => same ▸ ⟨locked, holds⟩⟩

/-- One step, and then another. -/
theorem safe_then {p : OpenProg Unit} {next : Unit → OpenProg Unit}
    (first : (openSetting builds i).Safe (allowed builds i) (Leaves builds i P) p d)
    (second : ∀ d, At builds i P d →
      (openSetting builds i).Safe (allowed builds i) (Leaves builds i Q) (next ()) d) :
    (openSetting builds i).Safe (allowed builds i) (Leaves builds i Q) (p >>= next) d := by
  refine Setting.Safe.bind (first.mono fun r d' leaves => ?_)
  cases r with
  | ok _ => exact second d' leaves
  | error x => exact leaves

/-- Nothing was written yet. -/
def Untouched (_ : File) (own : Option File) (wrote : Bool) : Prop := own = none ∧ wrote = false

/-- The journal is in WAL mode, and only a file without a stamp was written for it. -/
def Journalled (f : File) (own : Option File) (wrote : Bool) : Prop :=
  own = none ∧ f.wal = true ∧ (wrote = false ∨ f.stamp = none)

def Open (b : Build) (f : File) : Prop := f.stamp = none ∨ f.stamp = some b.mark

/-- The file is not another version's. -/
def Admitted (b : Build) (f : File) (own : Option File) (_ : Bool) : Prop :=
  own = none ∧ f.wal = true ∧ Open b f

/-- Objects of these names are in the file. -/
def Holds (written : List Statement) (f : File) : Prop :=
  ∀ n df, .object n df ∈ written → ∃ df', f.objects n = some df'

theorem Holds.grows {written : List Statement} {f f' : File} (holds : Holds written f)
    (grows : f.Grows f') : Holds written f' := fun n df member => by
  obtain ⟨df', there⟩ := holds n df member
  exact ⟨df', grows.objects n df' there⟩

/-- The file is stamped, and these objects are in it. -/
def Stamped (b : Build) (written : List Statement) (f : File) (own : Option File) (_ : Bool) : Prop :=
  own = none ∧ f.stamp = some b.mark ∧ Holds written f

theorem useWal_leaves (start : At builds i Untouched d) :
    (openSetting builds i).Safe (allowed builds i) (Leaves builds i Journalled) useWal d := by
  refine safe_call start (fun _ _ _ _ => trivial) fun mode d d' kept locked holds acts _ => ?_
  obtain ⟨free, clean⟩ := holds
  have told : d' = d ∧ (mode.toLower = "wal" ↔ d.file.wal = true) := by
    cases acts with
    | journalMode _ tells => exact ⟨rfl, by simpa only [Disk.view, free, Option.getD_none] using tells⟩
    | writes _ _ about => cases about
    | quiet _ quiet => cases quiet
  obtain ⟨rfl, tells⟩ := told
  by_cases already : mode.toLower = "wal"
  · simp only [if_pos already]
    exact safe_pure ⟨kept, fun _ => ⟨locked, free, tells.mp already, .inl clean⟩⟩
  · simp only [if_neg already]
    -- a stamped file is in WAL mode
    have unstamped : d'.file.stamp = none := by
      cases stamp : d'.file.stamp with
      | none => rfl
      | some v => exact absurd (tells.mpr (kept.wal v stamp)) already
    have here : At builds i (fun f own _ => own = none ∧ f.stamp = none) d' :=
      ⟨kept, fun _ => ⟨locked, free, unstamped⟩⟩
    refine safe_call here (fun _ _ locked holds => ⟨locked, holds.1, holds.2⟩)
      fun actual d₁ d₂ kept₁ locked₁ holds₁ acts kept₂ => ?_
    by_cases enabled : actual.toLower = "wal"
    · simp only [if_pos enabled]
      refine safe_pure ⟨kept₂, fun _ => ?_⟩
      cases acts with
      | refusesWal _ other => exact absurd enabled other
      | writes _ _ about writes =>
        cases about
        cases writes with
        | inside mine => exact absurd mine (Disk.own_eq_none.mp holds₁.1 _)
        | atOnce none => exact ⟨locked₁, holds₁.1, rfl, .inr holds₁.2⟩
      | quiet _ quiet => cases quiet
    · simp only [if_neg enabled]
      refine safe_raise ⟨?_, .inl ⟨by rintro ⟨⟩, rfl⟩⟩
      rintro ⟨_, gated⟩
      cases gated

variable {reader : StampReader}

theorem mark_injective (reader : StampReader) {a b : Build} (same : a.mark = b.mark) :
    a.version = b.version := by
  have read : some (a.version : ℤ) = some (b.version : ℤ) := by
    rw [← reader.reads, ← reader.reads]
    exact congrArg reader.int same
  exact Int.ofNat.inj (Option.some.inj read)

/-- A stamp of this version passes the gate; another one stops the open. -/
theorem validateVersion_leaves {b : Build} {raw : String} {j : ℕ} (marked : raw = (builds j).mark)
    (passes : raw = b.mark → At builds i P d) (clean : raw ≠ b.mark → d.wrote i = false) :
    (openSetting builds i).Safe (allowed builds i) (Leaves builds i P)
      (validateVersion reader b raw) d := by
  subst marked
  simp only [validateVersion, Build.mark, reader.reads]
  have apart : (builds j).version ≠ b.version → (builds j).mark ≠ b.mark :=
    fun differs same => differs (mark_injective reader same)
  have gate : ∀ {message : String}, (builds j).mark ≠ b.mark →
      (openSetting builds i).Safe (allowed builds i) (Leaves builds i P) (refuseVersion message) d :=
    fun other => safe_raise ⟨fun _ => clean other, .inl ⟨by rintro ⟨⟩, rfl⟩⟩
  by_cases newer : (b.version : ℤ) < (builds j).version
  · simp only [if_pos newer]
    exact gate (apart (by omega))
  · by_cases older : ((builds j).version : ℤ) < b.version
    · simp only [if_neg newer, if_pos older]
      exact gate (apart (by omega))
    · simp only [if_neg newer, if_neg older]
      have same : (builds j).version = b.version := by omega
      exact safe_pure (passes (congrArg toString same))

theorem refuse_leaves (start : At builds i Journalled d) :
    (openSetting builds i).Safe (allowed builds i) (Leaves builds i (Admitted (builds i)))
      (refuseADisagreeingDatabase reader (builds i)) d := by
  refine safe_call start (fun _ _ _ _ => trivial) fun there d d' kept locked holds acts _ => ?_
  have told : d' = d ∧ there = d.file.metaTable.isSome := by
    cases acts with
    | hasMeta => exact ⟨rfl, by rw [Disk.view, holds.1, Option.getD_none]⟩
    | writes _ _ about => cases about
    | quiet _ quiet => cases quiet
  obtain ⟨rfl, rfl⟩ := told
  cases stamp : d'.file.stamp with
  | none =>
    simp only [kept.stamped, stamp, Option.map_none, Option.isSome_none, Bool.false_eq_true, if_false]
    exact safe_pure ⟨kept, fun _ => ⟨locked, holds.1, holds.2.1, .inl stamp⟩⟩
  | some v =>
    simp only [kept.stamped, stamp, Option.map_some, Option.isSome_some, if_true]
    have clean : d'.wrote i = false := by
      rcases holds.2.2 with clean | unstamped
      · exact clean
      · rw [stamp] at unstamped
        cases unstamped
    have here : At builds i (fun f own wrote => own = none ∧ f.wal = true ∧ f.stamp = some v ∧
        wrote = false) d' :=
      ⟨kept, fun _ => ⟨locked, holds.1, holds.2.1, stamp, clean⟩⟩
    refine safe_call here (fun _ _ _ _ => trivial) fun row d₁ d₂ kept₁ locked₁ holds₁ acts _ => ?_
    obtain ⟨free, wal, stamped, clean⟩ := holds₁
    have read : d₂ = d₁ ∧ row = some v := by
      cases acts with
      | readStamp _ found =>
        rw [Disk.view, free, Option.getD_none, kept₁.stamped, stamped] at found
        exact ⟨rfl, (Option.some.inj found).symm⟩
      | writes _ _ about => cases about
      | quiet _ quiet => cases quiet
    obtain ⟨rfl, rfl⟩ := read
    obtain ⟨j, marked⟩ := kept₁.marked v stamped
    exact validateVersion_leaves marked
      (fun ours => ⟨kept₁, fun _ => ⟨locked₁, free, wal, .inr (ours ▸ stamped)⟩⟩) fun _ => clean

theorem OpenCall.effectless {e : OpenCall} (still : e.writing = false) (f : File → File) :
    e.effect ≠ some f := by
  intro about
  cases e <;> simp [effect, writing] at about still

/-- A call that does not write leaves no mark. -/
theorem Acts.unwritten {e : OpenCall} {r : e.Answer} (acts : Acts i e d r d')
    (still : e.writing = false) : d'.wrote i = d.wrote i := by
  have untouched : ∀ d : Disk, (d.touch i e).wrote i = d.wrote i := fun d => by
    simp [Disk.touch, still]
  cases acts with
  | fails => exact untouched d
  | aborts => exact untouched _
  | late _ _ about | writes _ _ about => exact absurd about (OpenCall.effectless still _)
  | refusesWal | beginImmediate | commit => cases still
  | _ => rfl

theorem safe_undo {x : Thrown} (fails : Fails i x d) :
    (openSetting builds i).Safe (allowed builds i) (Leaves builds i P) (undo x) d := by
  intro d₁ moves
  refine ⟨fun _ => trivial, fun r d₂ acts => safe_raise ⟨fun gated => ?_, ?_⟩⟩
  · rw [Acts.unwritten acts rfl, moves.wrote]
    exact fails.clean gated
  · refine fails.own.imp_right fun free alive => ?_
    have none : d₁.own i = none := (moves.own acts.alive).trans (free (moves.gone acts.alive))
    cases acts with
    | fails | quiet => exact none
    | aborts | rollback => exact Disk.own_drop_self
    | late _ _ about | writes _ _ about => cases about

/-- A transaction is open, with this much of the stamp in it. -/
def Begun (b : Build) (there : Option (Option String) → Prop) (f : File) (own : Option File)
    (_ : Bool) : Prop :=
  f.wal = true ∧ Open b f ∧ ∃ p, own = some p ∧ Open b p ∧ there p.metaTable

theorem writeStamp_leaves (start : At builds i (Begun (builds i) fun _ => True) d) :
    (openSetting builds i).Safe (allowed builds i)
      (Leaves builds i (Begun (builds i) fun table => table = some (some (builds i).mark)))
      (writeStamp (builds i)) d := by
  refine safe_call start (fun _ _ locked holds => ?_) fun _ d₁ d₂ kept₁ locked₁ holds₁ acts kept₂ => ?_
  · obtain ⟨-, ours, p, own, -⟩ := holds
    exact ⟨locked, by rw [own]; rfl, ours⟩
  have created : At builds i (Begun (builds i) fun table => table.isSome = true) d₂ := by
    refine ⟨kept₂, fun _ => ?_⟩
    obtain ⟨wal, ours, p, own, mine, -⟩ := holds₁
    cases acts with
    | writes _ _ about writes =>
      cases about
      cases writes with
      | @inside q held =>
        obtain rfl : p = q := Disk.own_inj own held
        exact ⟨locked₁, wal, ours, p.createMeta, Disk.own_eq_some.mpr rfl, mine, rfl⟩
      | atOnce none => exact absurd (Disk.own_eq_some.mp own) (by simp [none])
    | quiet _ quiet => cases quiet
  refine safe_call created (fun _ _ locked holds => ?_) fun _ d₃ d₄ kept₃ locked₃ holds₃ acts kept₄ => ?_
  · obtain ⟨-, ours, p, own, -⟩ := holds
    refine ⟨locked, rfl, ?_⟩
    rcases ours with unstamped | stamped
    · exact .inr ⟨unstamped, by rw [own]; rfl⟩
    · exact .inl stamped
  refine safe_pure ⟨kept₄, fun _ => ?_⟩
  obtain ⟨wal, ours, p, own, mine, there⟩ := holds₃
  cases acts with
  | writes _ _ about writes =>
    cases about
    cases writes with
    | @inside q held =>
      obtain rfl : p = q := Disk.own_inj own held
      have table : (p.insertStamp (builds i).mark).metaTable = some (some (builds i).mark) := by
        rcases p with ⟨_, _ | _ | w, _⟩
        · cases there
        · rfl
        · rcases mine with unstamped | stamped
          · cases unstamped
          · rw [← stamped]
            rfl
      refine ⟨locked₃, wal, ours, _, Disk.own_eq_some.mpr rfl, .inr ?_, table⟩
      rw [File.stamp, table]
      rfl
    | atOnce none => exact absurd (Disk.own_eq_some.mp own) (by simp [none])
  | quiet _ quiet => cases quiet

theorem stamp_leaves (start : At builds i (Admitted (builds i)) d) :
    (openSetting builds i).Safe (allowed builds i) (Leaves builds i (Stamped (builds i) []))
      (stampBeforeTheDdl (builds i)) d := by
  refine safe_call start (fun _ _ locked holds => ⟨locked, holds.2.2⟩)
    fun _ d₁ d₂ kept₁ locked₁ holds₁ acts kept₂ => ?_
  have begun : At builds i (Begun (builds i) fun _ => True) d₂ := by
    refine ⟨kept₂, fun _ => ?_⟩
    cases acts with
    | beginImmediate _ none =>
      refine ⟨locked₁, holds₁.2.1, holds₁.2.2, d₁.file, ?_, holds₁.2.2, trivial⟩
      simp [Disk.own, Disk.touch, Option.filter]
    | writes _ _ about => cases about
    | quiet _ quiet => cases quiet
  have undone : (openSetting builds i).Safe (allowed builds i)
      (Leaves builds i (Begun (builds i) fun table => table = some (some (builds i).mark)))
      ((writeStamp (builds i)).rescue undo) d₂ := by
    refine Setting.Safe.rescue ((writeStamp_leaves begun).mono fun r d' leaves => ?_)
    cases r with
    | ok _ => exact leaves
    | error x => exact safe_undo leaves
  refine safe_then undone fun d₃ stamped => ?_
  refine safe_call stamped (fun _ _ locked holds => ?_)
    fun _ d₄ d₅ kept₄ locked₄ holds₄ acts kept₅ => ?_
  · obtain ⟨wal, ours, p, own, -, table⟩ := holds
    exact ⟨locked, ours, wal, p, own, table⟩
  refine safe_pure ⟨kept₅, fun _ => ?_⟩
  obtain ⟨-, -, p, own, -, table⟩ := holds₄
  cases acts with
  | @commit _ q _ _ mine =>
    obtain rfl : p = q := Disk.own_inj own mine
    refine ⟨locked₄, rfl, ?_, fun _ _ none => by cases none⟩
    show p.stamp = _
    rw [File.stamp, table]
    rfl
  | writes _ _ about => cases about
  | quiet _ quiet => cases quiet

theorem executeScript_leaves {script written : List Statement} (all : ∀ s ∈ script, s ∈ (builds i).schema)
    (start : At builds i (Stamped (builds i) written) d) :
    (openSetting builds i).Safe (allowed builds i)
      (Leaves builds i (Stamped (builds i) (written ++ script))) (executeScript script) d := by
  induction script generalizing written d with
  | nil => exact safe_pure (by rwa [List.append_nil])
  | cons s rest ih =>
    have later : ∀ s ∈ rest, s ∈ (builds i).schema := fun s member => all s (List.mem_cons_of_mem _ member)
    have step : written ++ s :: rest = (written ++ [s]) ++ rest := by simp
    rw [step]
    cases s with
    | pragma text =>
      refine safe_quiet trivial start fun _ d₁ here => ih later ⟨here.kept, fun alive => ?_⟩
      obtain ⟨locked, free, stamped, there⟩ := here.here alive
      refine ⟨locked, free, stamped, fun n df member => there n df ?_⟩
      simpa using member
    | object n df =>
      have inside : .object n df ∈ (builds i).schema := all _ List.mem_cons_self
      refine safe_call start (fun _ _ locked holds => ⟨locked, holds.1, holds.2.1, inside⟩)
        fun _ d₁ d₂ kept₁ locked₁ holds₁ acts kept₂ => ih later ⟨kept₂, fun _ => ?_⟩
      obtain ⟨free, stamped, there⟩ := holds₁
      cases acts with
      | writes _ _ about writes =>
        cases about
        cases writes with
        | inside mine => exact absurd mine (Disk.own_eq_none.mp free _)
        | atOnce none =>
          refine ⟨locked₁, free, stamped, fun m dm member => ?_⟩
          rcases List.mem_append.mp member with before | here
          · exact there.grows (File.grows_createObject _ n df) m dm before
          · simp only [List.mem_singleton, Statement.object.injEq] at here
            obtain ⟨rfl, rfl⟩ := here
            exact ⟨_, File.createObject_same _ m dm⟩
      | quiet _ quiet => cases quiet

theorem check_leaves {written : List Statement} (start : At builds i (Stamped (builds i) written) d) :
    (openSetting builds i).Safe (allowed builds i) (Leaves builds i (Stamped (builds i) written))
      (checkOrStampVersion reader (builds i)) d := by
  refine safe_call start (fun _ _ locked holds => ⟨locked, rfl, .inl holds.2.1⟩)
    fun _ d₁ d₂ kept₁ locked₁ holds₁ acts kept₂ => ?_
  obtain ⟨free, stamped, there⟩ := holds₁
  have here : At builds i (Stamped (builds i) written) d₂ := by
    refine ⟨kept₂, fun _ => ?_⟩
    cases acts with
    | writes _ _ about writes =>
      cases about
      cases writes with
      | inside mine => exact absurd mine (Disk.own_eq_none.mp free _)
      | atOnce none =>
        refine ⟨locked₁, free, ?_⟩
        show (d₁.file.insertStamp _).stamp = _ ∧ Holds written (d₁.file.insertStamp _)
        rw [File.insertStamp_stamped stamped]
        exact ⟨stamped, there⟩
    | quiet _ quiet => cases quiet
  refine safe_call here (fun _ _ _ _ => trivial) fun row d₃ d₄ kept₃ locked₃ holds₃ acts kept₄ => ?_
  obtain ⟨free, stamped, there⟩ := holds₃
  have read : d₄ = d₃ ∧ row = some (builds i).mark := by
    cases acts with
    | readStamp _ found =>
      rw [Disk.view, free, Option.getD_none, kept₃.stamped, stamped] at found
      exact ⟨rfl, (Option.some.inj found).symm⟩
    | writes _ _ about => cases about
    | quiet _ quiet => cases quiet
  obtain ⟨rfl, rfl⟩ := read
  exact validateVersion_leaves rfl (fun _ => ⟨kept₃, fun _ => ⟨locked₃, free, stamped, there⟩⟩)
    fun differs => absurd rfl differs

theorem bootstrap_leaves (start : At builds i Untouched d) :
    (openSetting builds i).Safe (allowed builds i)
      (Leaves builds i (Stamped (builds i) (builds i).schema)) (bootstrap reader (builds i)) d := by
  intro d₁ moves
  have start := start.later moves
  refine ⟨fun _ => trivial, fun r d₂ acts => ?_⟩
  cases r with
  | error x =>
    refine safe_raise ⟨?_, .inr fun _ => ?_⟩
    · rintro ⟨_, gated⟩
      cases gated
    · have free : d₁.own i = none := (start.here acts.alive).2.1
      cases acts with
      | fails => exact free
      | aborts => exact Disk.own_drop_self
      | late _ _ about => cases about
  | ok _ =>
    have start : At builds i Untouched d₂ := by rwa [acts.quiet_ok trivial]
    refine safe_quiet trivial start fun _ d₃ start => ?_
    refine safe_then (useWal_leaves start) fun d₄ start => ?_
    refine safe_quiet trivial start fun _ d₅ start => ?_
    refine safe_quiet trivial start fun _ d₆ start => ?_
    refine safe_then (refuse_leaves start) fun d₇ start => ?_
    refine safe_then (stamp_leaves start) fun d₈ start => ?_
    refine safe_then (executeScript_leaves (fun _ => id) start) fun d₉ start => ?_
    exact check_leaves start

/-- The stamp of the build is there, and each object of its schema. -/
def Filled (b : Build) (f : File) : Prop := f.stamp = some b.mark ∧ Holds b.schema f

theorem Filled.grows {b : Build} {f f' : File} (filled : Filled b f) (grows : f.Grows f') :
    Filled b f' := ⟨grows.stamp _ filled.1, filled.2.grows grows⟩

/-- Neither the lock nor a transaction is the opener's. -/
def Clear (i : ℕ) (d : Disk) : Prop := d.dead i = false → d.lock ≠ some i ∧ d.own i = none

theorem Clear.later (clear : Clear i d) (moves : Spared builds i d d') : Clear i d' := by
  intro alive
  have before := clear (moves.gone alive)
  exact ⟨fun held => before.1 ((moves.lock alive).mp held), (moves.own alive).trans before.2⟩

/-- How an open ends. -/
structure Opened (builds : ℕ → Build) (i : ℕ) (r : Except Thrown Unit) (d : Disk) : Prop where
  filled : r = .ok () → Filled (builds i) d.file
  refused : ∀ x error, r = .error x → x.fault = .version error → d.wrote i = false
  clear : Clear i d

theorem Opened.later {r : Except Thrown Unit} (opened : Opened builds i r d)
    (moves : Spared builds i d d') : Opened builds i r d' where
  filled ok := (opened.filled ok).grows moves.grows
  refused x error raised gated := moves.wrote.trans (opened.refused x error raised gated)
  clear := opened.clear.later moves

/-- How it ends before the connection is closed for an exception. -/
structure Released (builds : ℕ → Build) (i : ℕ) (r : Except Thrown Unit) (d : Disk) : Prop where
  filled : r = .ok () → Filled (builds i) d.file
  clear : r = .ok () → Clear i d
  unlocked : d.dead i = false → d.lock ≠ some i
  fails : ∀ x, r = .error x → Fails i x d

theorem Released.later {r : Except Thrown Unit} (released : Released builds i r d)
    (moves : Spared builds i d d') : Released builds i r d' where
  filled ok := (released.filled ok).grows moves.grows
  clear ok := (released.clear ok).later moves
  unlocked alive held := released.unlocked (moves.gone alive) ((moves.lock alive).mp held)
  fails x raised := (released.fails x raised).later moves

/-- An exception from before the connection. -/
theorem Released.of_call {fault : CallFault} (clear : Clear i d) :
    Released builds i (.error ⟨.call fault, false⟩) d where
  filled ok := by cases ok
  clear ok := by cases ok
  unlocked alive := (clear alive).1
  fails x raised := by
    cases raised
    refine ⟨?_, .inr fun alive => (clear alive).2⟩
    rintro ⟨_, gated⟩
    cases gated

/-- What `unlock` leaves. -/
theorem Acts.unlocked {r : OpenCall.unlock.Answer} (acts : Acts i .unlock d r d') :
    d' = d.unlock i := by
  cases acts with
  | unlock => rfl
  | fails _ fallible | aborts _ fallible => cases fallible
  | late _ _ about | writes _ _ about => cases about
  | quiet _ quiet => cases quiet

theorem Acts.closed {r : OpenCall.close.Answer} (acts : Acts i .close d r d') : d' = d.drop i := by
  cases acts with
  | close => rfl
  | fails _ fallible | aborts _ fallible => cases fallible
  | late _ _ about | writes _ _ about => cases about
  | quiet _ quiet => cases quiet

/-- The lock is released, however the bootstrap ended. -/
theorem release_safe {r : Except Thrown Unit}
    (leaves : Leaves builds i (Stamped (builds i) (builds i).schema) r d) :
    (openSetting builds i).Safe (allowed builds i) (Released builds i)
      (release >>= fun _ => (.done r : OpenProg Unit)) d := by
  intro d₁ moves
  refine ⟨fun _ => trivial, fun answer d₂ acts => ?_⟩
  have here := leaves.later moves
  have alive := acts.alive
  obtain rfl := acts.unlocked
  have unlocked : (d₁.unlock i).lock ≠ some i := by simp [Disk.unlock]
  have ended : Released builds i r (d₁.unlock i) := by
    cases r with
    | ok _ =>
      obtain ⟨-, free, stamped, there⟩ := At.here here alive
      exact ⟨fun _ => ⟨stamped, there⟩, fun _ _ => ⟨unlocked, free⟩, fun _ => unlocked,
        fun x raised => (by cases raised)⟩
    | error x =>
      refine ⟨fun ok => ?_, fun ok => ?_, fun _ => unlocked, fun y raised => ?_⟩
      · cases ok
      · cases ok
      · cases raised
        have fails : Fails i x d₁ := here
        exact ⟨fails.clean, fails.own⟩
  cases answer <;> exact fun _ moves => ended.later moves

/-- An opener that was never under way. -/
def Idle (i : ℕ) (d : Disk) : Prop := d.wrote i = false ∧ Clear i d

theorem Idle.later (idle : Idle i d) (moves : Spared builds i d d') : Idle i d' :=
  ⟨moves.wrote.trans idle.1, idle.2.later moves⟩

/-- A call that fails before there is a connection takes nothing. -/
theorem Clear.fails {e : OpenCall} {x : CallFault} (clear : Clear i d) (still : e.writing = false)
    (acts : Acts i e d (.error x) d') : Clear i d' := by
  intro alive
  obtain ⟨lock, own⟩ := clear acts.alive
  cases acts with
  | fails => exact ⟨lock, own⟩
  | aborts => exact ⟨lock, Disk.own_drop_self⟩
  | late _ _ about => exact absurd about (OpenCall.effectless still _)
  | commit => cases still

theorem openLocked_safe (reader : StampReader) (kept : Kept builds d) (idle : Idle i d) :
    (openSetting builds i).Safe (allowed builds i) (Released builds i)
      (openLocked reader (builds i)) d := by
  intro d₁ moves
  refine ⟨fun _ => trivial, fun root d₂ acts => ?_⟩
  have permitted : Permitted (builds i) i d₁ .prepareRoot := trivial
  have kept := (moves.kept kept).acts permitted acts
  have idle₁ := idle.later moves
  cases root with
  | error x =>
    have ended : Released builds i (.error ⟨.call x, false⟩) d₂ := .of_call (idle₁.2.fails rfl acts)
    exact fun _ moves => ended.later moves
  | ok _ =>
    have idle₂ : Idle i d₂ := by rwa [acts.quiet_ok trivial]
    intro d₃ moves
    refine ⟨fun _ => trivial, fun lock d₄ acts => ?_⟩
    have permitted : Permitted (builds i) i d₃ .lockFile := trivial
    have kept := (moves.kept kept).acts permitted acts
    have idle₃ := idle₂.later moves
    cases lock with
    | error x =>
      have ended : Released builds i (.error ⟨.call x, false⟩) d₄ :=
        .of_call (idle₃.2.fails rfl acts)
      exact fun _ moves => ended.later moves
    | ok _ =>
      have start : At builds i Untouched d₄ := by
        cases acts with
        | lockFile alive => exact ⟨kept, fun _ => ⟨rfl, (idle₃.2 alive).2, idle₃.1⟩⟩
        | writes _ _ about => cases about
        | quiet _ quiet => cases quiet
      exact Setting.Safe.ensure ((bootstrap_leaves start).mono fun r d' => release_safe)

theorem abandon_closes {x : Thrown} (closes : x.Closes) :
    abandon x = .perform .close fun _ => Prog.raise x := by
  obtain ⟨fault, connected⟩ := x
  obtain ⟨other, rfl⟩ := closes
  cases fault with
  | typeError => exact absurd rfl other
  | _ => rfl

theorem abandon_raises {x : Thrown} (stays : ¬ x.Closes) : abandon x = Prog.raise x := by
  obtain ⟨fault, connected⟩ := x
  cases connected with
  | false => cases fault <;> rfl
  | true =>
    cases fault with
    | typeError => rfl
    | _ => exact absurd ⟨by rintro ⟨⟩, rfl⟩ stays

theorem connect_safe (reader : StampReader) (kept : Kept builds d) (idle : Idle i d) :
    (openSetting builds i).Safe (allowed builds i) (Opened builds i)
      (connect reader (builds i)) d := by
  refine Setting.Safe.rescue
    ((openLocked_safe reader kept idle).mono fun r d' released => ?_)
  cases r with
  | ok _ =>
    exact ⟨released.filled, fun x error raised => (by cases raised), released.clear rfl⟩
  | error x =>
    show (openSetting builds i).Safe _ _ (abandon x) d'
    have fails := released.fails x rfl
    by_cases closes : x.Closes
    · rw [abandon_closes closes]
      intro d₁ moves
      refine ⟨fun _ => trivial, fun answer d₂ acts => ?_⟩
      obtain rfl := acts.closed
      have ended : Opened builds i (.error x) (d₁.drop i) := by
        refine ⟨fun ok => ?_, fun y error raised gated => ?_, fun alive =>
          ⟨(released.later moves).unlocked alive, Disk.own_drop_self⟩⟩
        · cases ok
        · cases raised
          exact (fails.later moves).clean ⟨error, gated⟩
      exact fun _ moves => ended.later moves
    · rw [abandon_raises closes]
      have ended : Opened builds i (.error x) d' := by
        refine ⟨fun ok => ?_, fun y error raised gated => ?_, fun alive =>
          ⟨released.unlocked alive, (fails.own.resolve_left closes) alive⟩⟩
        · cases ok
        · cases raised
          exact fails.clean ⟨error, gated⟩
      exact fun _ moves => ended.later moves

/-! ### All openers -/

theorem openCrew_sound (reader : StampReader) :
    (openCrew builds reader).Sound (Kept builds) (allowed builds) (Opened builds) Idle where
  keeps i e w r w' kept permitted acts := kept.acts (permitted acts.alive) acts
  spares i j e w r w' other kept permitted acts :=
    spared_of_acts other kept (permitted acts.alive) acts
  aside w w' kept moves := by
    obtain ⟨i, rfl⟩ := moves
    exact ⟨(spared_of_kill i i w).kept kept, fun j => spared_of_kill i j w⟩
  enters i p w enters kept idle := by
    rw [show p = connect reader (builds i) from enters]
    exact connect_safe reader kept idle
  waits i w w' idle moves := idle.later moves

theorem kept_fresh : Kept builds {} where
  wal _ held := by cases held
  stamped := rfl
  marked _ held := by cases held
  objects _ _ held := by cases held
  pending _ _ held := by cases held

/-- What is known of every pool that is reached. -/
theorem openers_reached (reader : StampReader) {pool : Pool ℕ OpenCall OpenCall.Answer Thrown Unit Disk}
    (reached : (openCrew builds reader).Reaches {} pool) :
    Kept builds pool.world ∧
    (∀ i p, pool.threads i = some p →
      (openSetting builds i).Safe (allowed builds i) (Opened builds i) p pool.world) ∧
    ∀ i, pool.threads i = none → Idle i pool.world := by
  have idle : ∀ i, Idle i {} := fun _ => ⟨rfl, fun _ => ⟨by simp, rfl⟩⟩
  obtain ⟨kept, holds⟩ := (openCrew_sound reader).reaches kept_fresh idle reached
  refine ⟨kept, fun i p here => ?_, fun i none => ?_⟩
  · have held := holds i
    rw [here] at held
    exact held
  · have held := holds i
    rw [none] at held
    exact held

/-- Builds of one version never define one object in two ways. -/
def Compatible (builds : ℕ → Build) : Prop :=
  ∀ i j, (builds i).version = (builds j).version → ∀ n df df',
    .object n df ∈ (builds i).schema → .object n df' ∈ (builds j).schema → df = df'

/-- The whole schema of the build is there, and its stamp. -/
def Complete (b : Build) (f : File) : Prop :=
  f.stamp = some b.mark ∧ ∀ n df, .object n df ∈ b.schema → f.objects n = some df

/-- An object that stands already is what the build would write. -/
theorem Filled.complete (filled : Filled (builds i) d.file) (kept : Kept builds d)
    (reader : StampReader) (compatible : Compatible builds) : Complete (builds i) d.file := by
  refine ⟨filled.1, fun n df inside => ?_⟩
  obtain ⟨df', held⟩ := filled.2 n df inside
  obtain ⟨j, mark, theirs⟩ := kept.objects n df' held
  rw [filled.1, Option.some.injEq] at mark
  rw [held, compatible j i (mark_injective reader mark).symm n df' df theirs inside]

/-- Whatever builds open the file, in whatever order, and whoever is killed: the schema of a build
runs only on a file with its stamp; an open that the version gate refused ran no statement that
writes; one that succeeded finds the stamp and the schema of its build; one that has ended holds
neither the lock nor a transaction; and every object of the file is one of a build with the stamp's
version. -/
theorem bootstraps_safe (reader : StampReader) (builds : ℕ → Build) (compatible : Compatible builds)
    (pool : Pool ℕ OpenCall OpenCall.Answer Thrown Unit Disk)
    (reached : (openCrew builds reader).Reaches {} pool) :
    (∀ i n df next, pool.threads i = some (.perform (.createObject n df) next) →
      pool.world.dead i = false → pool.world.file.stamp = some (builds i).mark) ∧
    (∀ i x error, pool.threads i = some (.done (.error x)) → x.fault = .version error →
      pool.world.wrote i = false) ∧
    (∀ i, pool.threads i = some (.done (.ok ())) → Complete (builds i) pool.world.file) ∧
    (∀ i r, pool.threads i = some (.done r) → Clear i pool.world) ∧
    ∀ n df, pool.world.file.objects n = some df →
      ∃ j, pool.world.file.stamp = some (builds j).mark ∧ .object n df ∈ (builds j).schema := by
  obtain ⟨kept, safe, -⟩ := openers_reached reader reached
  refine ⟨fun i n df next here alive => ?_, fun i x error here gated => ?_, fun i here => ?_,
    fun i r here => ?_, kept.objects⟩
  · exact (((safe i _ here) _ (.refl builds i _)).1 alive).2.2.1
  · exact Opened.refused ((safe i _ here) _ (.refl builds i _)) x error rfl gated
  · have filled := Opened.filled ((safe i _ here) _ (.refl builds i _)) rfl
    exact filled.complete kept reader compatible
  · exact Opened.clear ((safe i _ here) _ (.refl builds i _))

/-! An opener that is killed between two objects of its schema. -/

def sampleReader : StampReader where
  int s := if s.toList.all Char.isDigit then some (Nat.ofDigitChars 10 s.toList 0) else none
  reads n := by
    have digits : (toString n).toList.all Char.isDigit = true := by
      rw [Nat.toString_eq_repr, Nat.toList_repr, List.all_eq_true]
      exact fun c member => Nat.isDigit_of_mem_toDigits (by decide) (by decide) member
    rw [if_pos digits, Nat.toString_eq_repr, Nat.toList_repr, Nat.ofDigitChars_ten_toDigits]

def sampleBuild : Build :=
  ⟨1, [.pragma "user_version", .object "session" "a table", .object "event" "another table"],
    by decide⟩

theorem sample_compatible : Compatible fun _ => sampleBuild := by
  intro i j same n df df' inside inside'
  simp only [sampleBuild, List.mem_cons, reduceCtorEq, Statement.object.injEq, List.not_mem_nil,
    or_false, false_or] at inside inside'
  grind

/-- The first opener, up to the middle of its schema. -/
def sampleStart : OpenProg Unit × Disk :=
  (connect sampleReader sampleBuild).advance (answer 0) 15 {}

def interrupted : Pool ℕ OpenCall OpenCall.Answer Thrown Unit Disk :=
  ⟨Function.update (fun _ => none) 0 (some sampleStart.1), sampleStart.2.kill 0⟩

/-- The first opener can get this far, and be killed there. -/
theorem killed_reached {builds : ℕ → Build} {n : ℕ}
    (alive : (connect reader (builds 0)).complies (answer 0) (fun _ d => !d.dead 0) n {} = true) :
    (openCrew builds reader).Reaches {}
      ⟨Function.update (fun _ => none) 0
        (some ((connect reader (builds 0)).advance (answer 0) n {}).1),
        ((connect reader (builds 0)).advance (answer 0) n {}).2.kill 0⟩ := by
  have entered : (openCrew builds reader).Step ⟨fun _ => none, {}⟩
      ⟨Function.update (fun _ => none) 0 (some (connect reader (builds 0))), {}⟩ := .enter rfl rfl
  have admitted : ∀ e (d : Disk), (!d.dead 0) = true → Acts 0 e d (answer 0 e d).1 (answer 0 e d).2 :=
    fun e d alive => answer_acts e (by simpa using alive)
  have ran : Relation.ReflTransGen (openCrew builds reader).Step _
      ⟨Function.update (fun _ => none) 0
        (some ((connect reader (builds 0)).advance (answer 0) n {}).1),
        ((connect reader (builds 0)).advance (answer 0) n {}).2⟩ :=
    Crew.steps_advance admitted alive
  exact ((Relation.ReflTransGen.single entered).trans ran).tail (.aside ⟨0, rfl⟩)

theorem interrupted_reached :
    (openCrew (fun _ => sampleBuild) sampleReader).Reaches {} interrupted :=
  killed_reached (by decide +kernel)

theorem bootstraps_safe_sample : interrupted.world.file.objects "session" = some "a table" ∧
    interrupted.world.file.stamp = some sampleBuild.mark := by
  have there : interrupted.world.file.objects "session" = some "a table" := by decide +kernel
  obtain ⟨j, stamped, -⟩ := (bootstraps_safe sampleReader (fun _ => sampleBuild) sample_compatible
    interrupted interrupted_reached).2.2.2.2 _ _ there
  exact ⟨there, stamped⟩

end Nelix.Store
