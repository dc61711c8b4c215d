import Nelix.Router.OperatorScene

/-!
# Who writes retirement columns

What a call of `retire` can still write of an epoch's retirement columns, at every point of its
program. Until it has listed the epochs it writes none. From the listing on it writes those of the
epochs that were listed uncertified, and behind its own certificate for an epoch no more of that
epoch's.

## Main results

`Ahead.retire`: a call that has not listed the epochs is on its way to a listing it will abide by.
-/
namespace Nelix.Router

open Contracts Core Store Prog Routine

/-! ### Retirement columns -/

/-- The effect writes no retirement column of the epoch. -/
def Omits (e : String) (a : Act) : Prop :=
  ∀ state certificate final, a.effect ≠ .write (.setEpochRetirement e state certificate final)

def certifies (e : String) : Effect → Bool
  | .write (.setEpochRetirement e' .certified ..) => e' = e
  | _ => false

/-- The effect certifies the epoch. -/
def Certifies (e : String) (a : Act) : Prop := certifies e a.effect = true

/-- The effect lists the epochs of the generation, before the lock. -/
def Act.lists : Act → Bool
  | ⟨.reading, .ask (.listEpochs _)⟩ => true
  | _ => false

def Scene.certified (w : Scene) (e : String) : Prop :=
  ∃ row ∈ w.db.epochs.rows, row.generationEpoch = e ∧ row.retirementState = .certified

instance (w : Scene) (e : String) : Decidable (w.certified e) := by
  unfold Scene.certified; infer_instance

variable {w w' : Scene} {a : Act} {r : a.Answer} {g e : String} {at_ : Surroundings}
  {ep : EpochRecord} {epochs : List EpochRecord}

theorem certified_before (acts : operates a w r w') (now : w'.certified e) :
    w.certified e ∨ certifies e a.effect = true := by
  obtain ⟨row', member, named, certified⟩ := now
  rcases operates_db acts with ⟨call, effect, rfl⟩ | ⟨kept, -⟩
  · rw [effect]
    simp only [Scene.after, settled] at member
    cases done : call.apply w.db with
    | error raised =>
      rw [done] at member
      exact .inl ⟨row', member, named, certified⟩
    | ok db' =>
      rw [done] at member
      rcases Call.epoch_cases done member with old | ⟨row, old, move⟩ | ⟨_, -, -, -, -, opened, -⟩
      · exact .inl ⟨row', old, named, certified⟩
      · have key := move.key.1
        -- of the moves of a row only a retirement writes the state
        cases move with
        | retirement state certificate final cell high here bound checked =>
          cases state with
          | certified => exact .inr (by simp [certifies, here, ← named, key])
          | opened => cases certified
          | quiescing => cases certified
        | promoted => exact .inl ⟨row, old, named, certified⟩
        | process => exact .inl ⟨row, old, named, certified⟩
        | reconciled => exact .inl ⟨row, old, named, certified⟩
      · rw [opened] at certified
        cases certified
  · rw [kept] at member
    exact .inl ⟨row', member, named, certified⟩

/-! ### What a stage omits -/

theorem certifies_own {stage : Stage} {effect : Effect} (does : stage.does effect = true)
    (shown : certifies e effect = true) : stage = .certifying e := by
  cases effect with
  | write call =>
    cases call with
    | setEpochRetirement e' state =>
      cases stage <;> cases state <;> simp_all [certifies, Stage.does]
    | _ => simp [certifies] at shown
  | _ => simp [certifies] at shown

/-- Whose retirement columns a stage writes. -/
theorem retires_own {stage : Stage} {state : RetirementState} {certificate : CertificateArg}
    {final : Option ℤ}
    (does : stage.does (.write (.setEpochRetirement e state certificate final)) = true) :
    stage = .reconciling e ∨ stage = .certifying e ∨ stage = .serving e := by
  cases stage <;> cases state <;> simp_all [Stage.does]

theorem fits_omits {stage : Stage} {site : Site}
    (other : stage ≠ .reconciling e ∧ stage ≠ .certifying e ∧ stage ≠ .serving e) :
    stage.Fits (Omits e) site := by
  intro effect does state certificate final writes
  obtain rfl : effect = .write (.setEpochRetirement e state certificate final) := writes
  rcases retires_own does with here | here | here
  · exact other.1 here
  · exact other.2.1 here
  · exact other.2.2 here

theorem fits_unmarked {stage : Stage} {site : Site} (other : stage ≠ .certifying e) :
    stage.Fits (¬ Certifies e ·) site :=
  fun _ does shown => other (certifies_own does shown)

theorem Late.omits (late : Late a) : Omits e a := by
  obtain ⟨stage, does, late⟩ := late
  intro state certificate final writes
  rw [writes] at does
  rcases retires_own does with rfl | rfl | rfl <;> cases late

/-! ### Phase 1 -/

/-- The work on another epoch omits this one. -/
theorem omits_certifyListed {current : Option String} (other : ep.generationEpoch ≠ e) :
    (certifyListed at_ g current ep).Only (Omits e) := by
  have reconciling : Stage.reconciling ep.generationEpoch ≠ .reconciling e :=
    fun same => other (Stage.reconciling.inj same)
  have certifying : Stage.certifying ep.generationEpoch ≠ .certifying e :=
    fun same => other (Stage.certifying.inj same)
  have serving : Stage.serving ep.generationEpoch ≠ .serving e :=
    fun same => other (Stage.serving.inj same)
  exact only_certifyListed_at
    (fun _ => ⟨fits_omits ⟨nofun, nofun, serving⟩, fits_omits ⟨nofun, nofun, nofun⟩,
      fits_omits ⟨nofun, nofun, nofun⟩⟩)
    fun _ => ⟨fits_omits ⟨reconciling, nofun, nofun⟩, fits_omits ⟨nofun, certifying, nofun⟩⟩

/-- An epoch that was listed certified is passed over. -/
theorem omits_certified {current : Option String} (certified : ep.retirementState = .certified) :
    (certifyListed at_ g current ep).Only (Omits e) := by
  rw [certifyListed, if_pos certified]
  exact .pure

/-- Nor does it certify this one. -/
theorem unmarked_certifyListed {current : Option String} (other : ep.generationEpoch ≠ e) :
    (certifyListed at_ g current ep).Only (¬ Certifies e ·) := by
  have certifying : Stage.certifying ep.generationEpoch ≠ .certifying e :=
    fun same => other (Stage.certifying.inj same)
  exact only_certifyListed_at
    (fun _ => ⟨fits_unmarked nofun, fits_unmarked nofun, fits_unmarked nofun⟩)
    fun _ => ⟨fits_unmarked nofun, fits_unmarked certifying⟩

/-- The crash path writes the certificate itself, last of all. -/
theorem last_reconcileDead : (reconcileDead g ep).Last (Certifies e) (Omits e) := by
  have fits : ∀ {site : Site}, (Stage.reconciling ep.generationEpoch).Fits (¬ Certifies e ·) site :=
    fits_unmarked nofun
  refine Last.behind (only_closeReconciled fits rfl) fun _ =>
    Last.behind (only_reapChildGroups fits) fun obstacle => ?_
  cases obstacle with
  | some obstacle => exact Last.pure
  | none =>
    refine Last.behind (only_outstandingOf fits) fun found => ?_
    cases found with
    | error obstacle => exact Last.pure
    | ok outstanding =>
      refine Last.behind (only_publishAll fits) fun obstacle => ?_
      cases obstacle with
      | some obstacle => exact Last.pure
      | none =>
        -- nothing follows the certificate
        refine Last.behind (only_ask fits) fun finalHw => Last.bind ?_ fun _ => Only.pure
        exact ⟨fun _ _ => Only.done, fun _ => Last.done⟩

theorem last_crashReconcileEpoch {epoch : String} :
    (crashReconcileEpoch at_ g epoch).Last (Certifies e) (Omits e) := by
  have fits : ∀ {site : Site}, (Stage.reconciling epoch).Fits (¬ Certifies e ·) site :=
    fits_unmarked nofun
  refine Last.behind (only_ask fits) fun epochs => ?_
  split
  · exact Last.pure
  split
  · exact Last.pure
  split
  · exact Last.pure
  refine Last.behind (.perform (fits _ rfl) fun _ => .done) fun alive => ?_
  split
  · exact Last.pure
  · exact last_reconcileDead

/-- The clean path certifies nothing itself: it asks the daemon to. -/
theorem last_certifyListed {current : Option String} :
    (certifyListed at_ g current ep).Last (Certifies e) (Omits e) := by
  unfold certifyListed
  split
  · exact Last.pure
  split
  · refine Last.bind last_crashReconcileEpoch fun obstacle => ?_
    cases obstacle <;> exact Only.pure
  split
  · exact Last.unmarked (only_certifyServing (fits_unmarked nofun) (fits_unmarked nofun)
      (fits_unmarked nofun))
  · exact Last.pure

/-- The epochs of a listing are told apart by their names. -/
theorem last_certifyVisit {current : Option String}
    (distinct : (epochs.map EpochRecord.generationEpoch).Nodup) :
    (Prog.visit (certifyListed at_ g current) epochs).Last (Certifies e) (Omits e) := by
  refine Last.visit ?_ fun ep _ => last_certifyListed
  rw [List.Nodup, List.pairwise_map] at distinct
  refine distinct.imp fun {first second} apart => ?_
  by_cases here : first.generationEpoch = e
  · exact .inr (omits_certifyListed fun same => apart (here.trans same.symm))
  · exact .inl (unmarked_certifyListed here)

/-! ### The whole call -/

/-- What a call may do from the listing on: it writes the retirement columns of the epochs that were
listed uncertified, and behind its own certificate for an epoch no more of that epoch's. -/
structure Abides (epochs : List EpochRecord) (q : Routine RetireReply) : Prop where
  confined : ∀ e, q.Only (Omits e) ∨
    ∃ ep ∈ epochs, ep.generationEpoch = e ∧ ep.retirementState ≠ .certified
  last : ∀ e, q.Last (Certifies e) (Omits e)

theorem omits_behind {gen : GenerationRow} :
    ∀ verdict : Option Hold, (match verdict with
      | some hold => pure (.blocked gen.lifecycleState hold)
      | none => finalize g : Routine RetireReply).Only (Omits e) := by
  intro verdict
  cases verdict with
  | some hold => exact Only.pure
  | none => exact late_finalize.mono fun _ late => late.omits

theorem abides_retireListed {gen : GenerationRow}
    (distinct : (epochs.map EpochRecord.generationEpoch).Nodup) :
    Abides epochs (retireListed at_ g gen epochs) := by
  have gates : ∀ e, (gates at_ g).Only (Omits e) := fun e =>
    late_gates.mono fun _ late => late.omits
  have locks : ∀ e, lock.Only (Omits e) := fun e => .perform nofun fun _ => .done
  have unlocks : ∀ e, unlock.Only (Omits e) := fun e => .perform nofun fun _ => .done
  refine ⟨fun e => ?_, fun e => ?_⟩
  · by_cases listed : ∃ ep ∈ epochs, ep.generationEpoch = e ∧ ep.retirementState ≠ .certified
    · exact .inr listed
    · -- it was shown certified or not at all, and either is passed over
      have each : ∀ ep ∈ epochs, (certifyListed at_ g gen.currentEpoch ep).Only (Omits e) := by
        intro ep member
        by_cases here : ep.generationEpoch = e
        · have certified : ep.retirementState = .certified := by
            by_contra uncertified
            exact listed ⟨ep, member, here, uncertified⟩
          exact omits_certified certified
        · exact omits_certifyListed here
      left
      unfold retireListed
      split
      · exact Only.raise
      exact .bind (locks e) fun _ => .ensure
        (.bind (.otherwise (.visit_mem each) (gates e)) omits_behind) (unlocks e)
  · unfold retireListed
    split
    · exact Last.done
    have unmarked : lock.Only (¬ Certifies e ·) := .perform nofun fun _ => .done
    exact .behind unmarked fun _ => .ensure
      (.bind (.otherwise (last_certifyVisit distinct) (gates e)) omits_behind) (unlocks e)

/-- Up to the listing a call writes no retirement columns. -/
def Reads (a : Act) : Prop := a.lists = false ∧ ∀ e, Omits e a

/-- A call that has not listed the epochs: it reads up to the listing, and abides by what it lists
then. -/
inductive Ahead : Routine RetireReply → Prop
  | returned (r : Except Raised RetireReply) : Ahead (.done r)
  | reads {a : Act} {next : a.Answer → Routine RetireReply} (here : Reads a)
      (rest : ∀ r, Ahead (next r)) : Ahead (.perform a next)
  | lists {g : String} {next : Except Raised (List EpochRecord) → Routine RetireReply}
      (fails : ∀ x, (next (.error x)).Only fun _ => False)
      (abides : ∀ epochs, (epochs.map EpochRecord.generationEpoch).Nodup →
        Abides epochs (next (.ok epochs))) :
      Ahead (.perform ⟨.reading, .ask (.listEpochs g)⟩ next)

theorem Ahead.bind {α : Type} {p : Routine α} {f : α → Routine RetireReply} (reads : p.Only Reads)
    (second : ∀ a, Ahead (f a)) : Ahead (p >>= f) := by
  induction p with
  | done r =>
    cases r with
    | ok a => exact second a
    | error x => exact .returned _
  | perform a next ih => exact .reads reads.1 fun r => ih r (reads.2 r)

theorem reads_readGeneration : (readGeneration g).Only Reads := by
  refine Only.rescue (.perform ⟨rfl, nofun⟩ fun _ => .done) fun x => ?_
  split
  · split
    · exact .raise
    · exact .raise
  · exact .raise

/-- A call that has not listed the epochs is on its way to a listing it will abide by. -/
theorem Ahead.retire : Ahead (retire at_ g) := by
  unfold Router.retire
  split
  · exact .returned _
  refine Ahead.bind reads_readGeneration fun gen => ?_
  split
  · exact .returned _
  split
  · exact .returned _
  exact .lists (fun x => Only.done) fun epochs distinct => abides_retireListed distinct

/-- A listing shows what is certified at its moment. -/
theorem uncertified_of_listed (listed : w.db.listEpochs g = .ok epochs) (member : ep ∈ epochs)
    (uncertified : ep.retirementState ≠ .certified) : ¬ w.certified ep.generationEpoch := by
  rw [← (listEpochs_ok.mp listed).2] at member
  obtain ⟨row, here, read⟩ := List.mem_filterMap.mp member
  obtain ⟨named, -, -, retirement, -⟩ := decode_eq_some read
  rintro ⟨other, there, same, certified⟩
  obtain rfl : other = row :=
    Table.eq_of_key there (mem_epochRows.mp here).1 (same.trans named)
  exact uncertified (retirement.trans certified)

end Nelix.Router
