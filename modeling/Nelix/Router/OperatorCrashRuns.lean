import Nelix.Router.OperatorCrash
import Nelix.Router.OperatorScene

/-!
# From the crash to the reconciliation

What happens to a home before and after the crash of a daemon: the transactions of everybody on the
store, the records of the agents, and the start-up passes of other daemons over them.

## Main results

`crash_reconciled`: after any history, a dead epoch is reconciled exactly when the evidence is
there; and it is there when the crash left it and nothing since has touched it.
-/
namespace Nelix.Router

open Contracts Core Store Prog Routine Daemon

inductive Incident
  | store (call : Store.Call)
  /-- `Session._record_child`, once the agent is spawned. -/
  | recordChild (sessionId : String) (daemon : DaemonIdentity) (pid : ℤ)
      (fingerprint : Option String) (argv : Json)
  /-- `forget_child` at the end of a session, or the session's directory is pruned. -/
  | forgetChild (sessionId : String)
  /-- A daemon starts up and passes over all records. -/
  | reconcileOrphans (view : Inspector) (self : DaemonIdentity) (moves : String → Bool)

def Home.meets (w : Home) : Incident → Home
  | .store call => { w with db := settled w.db (call.apply w.db) }
  | .recordChild sid daemon pid fingerprint argv =>
    let file := ChildFile.record (childRecord sid daemon pid fingerprint argv)
    { w with children := Function.update w.children sid file }
  | .forgetChild sid => { w with children := Function.update w.children sid .missing }
  | .reconcileOrphans view self moves =>
    { w with children := fun sid => reconcileOrphan view self sid (moves sid) (w.children sid) }

/-- A home under a list of incidents. -/
def home : Machine Home Incident Unit where
  step w incident := (w.meets incident, [])

/-- The incident brings no session into the epoch, promotes it no more, writes nothing that cannot
be read back, and leaves the records of its outstanding sessions. -/
def Incident.leaves (e : String) (w : Home) : Incident → Prop
  | .store call => call.spares e w.db ∧ call.readsBack = true ∧
      ∀ g expected incarnation, call ≠ .casEpochServing g e expected incarnation
  | .recordChild sid .. | .forgetChild sid => ∀ start ∈ w.db.listStartsForEpoch e,
      start.sessionId ≠ sid
  | .reconcileOrphans view self moves => ∀ start ∈ w.db.listStartsForEpoch e,
      reconcileOrphan view self start.sessionId (moves start.sessionId)
        (w.children start.sessionId) = w.children start.sessionId

variable {w : Home} {g e : String} {at_ : Surroundings} {incident : Incident}

theorem Home.Sound.meets (sound : w.Sound) : (w.meets incident).Sound := by
  cases incident with
  | store call => exact ⟨sound.shaped.step call, sound.backed.step call⟩
  | recordChild => exact ⟨sound.shaped, sound.backed⟩
  | forgetChild => exact ⟨sound.shaped, sound.backed⟩
  | reconcileOrphans => exact ⟨sound.shaped, sound.backed⟩

theorem sound_after (history : List Incident) : (home.after {} history).Sound :=
  home.invariant_after Home.Sound (fun _ _ sound => sound.meets)
    ⟨epochsShaped_after [], sessionsBacked_after []⟩ history

/-- The daemon is told by what its epoch recorded of it. -/
theorem incarnationPid_congr {ep ep' : EpochRecord}
    (same : ep'.incarnationMeta = ep.incarnationMeta) :
    incarnationPid at_ ep' = incarnationPid at_ ep := by
  unfold incarnationPid
  rw [same]

/-- What the store says of the daemon stays. -/
theorem promoted_step {db db' : Db} {call : Store.Call} {row : EpochRow} {ep : EpochRecord} {pid : ℤ}
    (done : call.apply db = .ok db')
    (unpromoted : ∀ g expected incarnation, call ≠ .casEpochServing g e expected incarnation)
    (readable : ∀ row ∈ db'.epochs.rows, row.generationId = g → row.decode.isSome)
    (found : db.findEpoch e = some row) (owned : row.generationId = g)
    (decodes : row.decode = some ep) (recorded : incarnationPid at_ ep = .ok pid) :
    ∃ row ep pid, db'.findEpoch e = some row ∧ row.generationId = g ∧ row.decode = some ep ∧
      incarnationPid at_ ep = .ok pid := by
  have named := Db.generationEpoch_of_findEpoch found
  rcases Store.Call.epoch_stays done (Table.mem_of_find? found) with stays | ⟨row', member, move⟩
  · exact ⟨row, ep, pid, named ▸ Table.find?_of_mem stays, owned, decodes, recorded⟩
  · obtain ⟨key, owner⟩ := move.key
    obtain ⟨ep', decodes'⟩ := Option.isSome_iff_exists.mp
      (readable row' member (owner.trans owned))
    have there : db'.findEpoch e = some row' :=
      key.trans named ▸ Table.find?_of_mem member
    -- Only a promotion records an incarnation.
    have kept : row'.incarnationMeta = row.incarnationMeta := by
      cases move with
      | promoted expected incarnation here starting shaped =>
        exact absurd (named ▸ here) (unpromoted row.generationId expected incarnation)
      | retirement state certificate final cell high here bound checked => cases state <;> rfl
      | process state here => rfl
      | reconciled here => rfl
    have same : ep'.incarnationMeta = ep.incarnationMeta := by
      rw [(decode_eq_some decodes').2.2.2.2.2, kept, (decode_eq_some decodes).2.2.2.2.2]
    exact ⟨row', ep', pid, there, owner.trans owned, decodes',
      (incarnationPid_congr same).trans recorded⟩

/-- What leaves the evidence alone keeps it. -/
theorem Evident.meets (sound : w.Sound) (evident : Evident at_ g e w)
    (leaves : incident.leaves e w) : Evident at_ g e (w.meets incident) := by
  cases incident with
  | store call =>
    obtain ⟨spares, back, unpromoted⟩ := leaves
    cases done : call.apply w.db with
    | error x => simpa only [Home.meets, settled, done] using evident
    | ok db' =>
      simp only [Home.meets, settled, done]
      obtain ⟨row, ep, pid, found, owned, decodes, recorded⟩ := evident.promoted
      obtain ⟨named, readable⟩ := listEpochsStrict_ok.mp evident.readable
      have later := readable_step sound.shaped done back readable
      refine ⟨listEpochsStrict_ok.mpr ⟨named, later⟩,
        promoted_step done unpromoted later found owned decodes recorded, ?_⟩
      intro start outstanding
      obtain ⟨old, before, same⟩ := Store.Call.outstanding_before done spares outstanding
      exact same ▸ evident.recorded old before
  | recordChild sid daemon pid fingerprint argv =>
    refine ⟨evident.readable, evident.promoted, fun start outstanding => ?_⟩
    simpa only [Home.meets, Function.update_of_ne (leaves start outstanding)]
      using evident.recorded start outstanding
  | forgetChild sid =>
    refine ⟨evident.readable, evident.promoted, fun start outstanding => ?_⟩
    simpa only [Home.meets, Function.update_of_ne (leaves start outstanding)]
      using evident.recorded start outstanding
  | reconcileOrphans view self moves =>
    refine ⟨evident.readable, evident.promoted, fun start outstanding => ?_⟩
    simpa only [Home.meets, leaves start outstanding] using evident.recorded start outstanding

/-- After any history, once the daemon and its agents' groups are gone: a dead epoch is reconciled exactly
when the evidence is there and no other process has taken one of the recorded numbers. The evidence
is there when the crash left it and nothing since has touched it. -/
theorem crash_reconciled (at_ : Surroundings) (table : Processes) (clock : ℕ → ℚ)
    (before after : List Incident) (g e : String) :
    (∀ row, (home.after {} (before ++ after)).db.findEpoch e = some row →
      row.generationId = g → row.processState = .dead →
      GroupsGone table e (home.after {} (before ++ after)) →
      (Reconciled e (home.after {} (before ++ after)) (Home.runs table clock
          (crashReconcileEpoch at_ g e) (home.after {} (before ++ after))) ↔
        Evident at_ g e (home.after {} (before ++ after)) ∧
          Unmistaken at_ table e (home.after {} (before ++ after)) ∧
          (lostHighWater (home.after {} (before ++ after)).db e : ℤ) ≤ maxInteger)) ∧
    (Evident at_ g e (home.after {} before) →
      home.Along (fun w incident => incident.leaves e w) (home.after {} before) after →
        Evident at_ g e (home.after {} (before ++ after))) := by
  have sound := sound_after (before ++ after)
  refine ⟨fun row found owned dead gone =>
    reconciled_iff sound.shaped sound.backed found owned dead gone, fun evident along => ?_⟩
  rw [home.after_append]
  exact (home.invariant_along (fun w => w.Sound ∧ Evident at_ g e w)
    (fun w incident held leaves => ⟨held.1.meets, held.2.meets held.1 leaves⟩)
    ⟨sound_after before, evident⟩ along).2

/-! ### Crash points -/

def theDaemon : DaemonIdentity := ⟨7, some "100"⟩

def nobody : Processes := ⟨fun _ => false, fun _ => none, fun _ _ => .processLookupError⟩

/-- Up to the spawn of the agent of a session, with its epoch promoted. -/
def launched : List Incident :=
  [.store (.createGeneration sampleGeneration none .active none (.finite 1)),
    .store (.insertEpoch firstEpoch sampleGeneration none (.finite 1)),
    .store (.casEpochServing sampleGeneration firstEpoch none (some "7")),
    .store (.reserve sampleRequest sampleId (.finite 1)),
    .store (.assignGeneration sampleId.value sampleGeneration firstEpoch),
    .store (.createSession sampleId.value ⟨"starting", "claude", "task", "/", none, .finite 1⟩)]

def recordSample : Incident := .recordChild sampleId.value theDaemon 8 (some "200") .null

def markDead : Incident := .store (.reconcileEpochDead sampleGeneration firstEpoch)

/-- The row of the epoch once it is promoted. -/
def promotedRow (process : ProcessState) : EpochRow where
  generationEpoch := firstEpoch
  generationId := sampleGeneration
  processState := process
  retirementState := .opened
  certificate := .null
  finalHighWater := none
  incarnationMeta := some "7"
  createdAt := 1

theorem crash_reconciled_recorded :
    Reconciled firstEpoch (home.after {} (launched ++ [recordSample] ++ [markDead]))
      (Home.runs nobody (fun _ => 5) (crashReconcileEpoch oneProcess sampleGeneration firstEpoch)
        (home.after {} (launched ++ [recordSample] ++ [markDead]))) := by
  have both := crash_reconciled oneProcess nobody (fun _ => 5) (launched ++ [recordSample])
    [markDead] sampleGeneration firstEpoch
  have found : (home.after {} (launched ++ [recordSample])).db.findEpoch firstEpoch =
      some (promotedRow .serving) := by decide +kernel
  have dead : (home.after {} (launched ++ [recordSample] ++ [markDead])).db.findEpoch firstEpoch =
      some (promotedRow .dead) := by decide +kernel
  have evident : Evident oneProcess sampleGeneration firstEpoch
      (home.after {} (launched ++ [recordSample])) := by
    refine ⟨listEpochsStrict_ok.mpr (by decide +kernel),
      ⟨_, _, 7, found, rfl, rfl, rfl⟩, fun start member => ?_⟩
    have only : ∀ start ∈ (home.after {} (launched ++ [recordSample])).db.listStartsForEpoch
        firstEpoch, start.sessionId = sampleId.value := by decide +kernel
    rw [only start member]
    exact ⟨_, _, rfl, childIdentity_childRecord (by decide)⟩
  refine (both.1 _ dead rfl rfl fun _ _ _ _ _ _ _ _ _ => rfl).mpr ⟨both.2 evident ⟨⟨trivial, rfl, nofun⟩, trivial⟩, ⟨?_, ?_⟩, ?_⟩
  · intro row ep pid _ _ _
    rfl
  · intro start _ record pid pgid fingerprint _ _
    rfl
  · decide +kernel

theorem not_reconciled {outcome : Except Raised (Option Obstacle) × Home} (obstacle : Obstacle)
    (blocked : outcome.1 = .ok (some obstacle)) : ¬ Reconciled e w outcome := by
  intro reconciled
  have succeeds := reconciled.succeeds
  rw [blocked] at succeeds
  cases succeeds

/-- The daemon dies between the session's row and the agent's record; with the record written, a
later daemon finds its process gone and forgets it; or the daemon dies before its epoch was
promoted. Each time the epoch is dead, nothing of it is alive, and it cannot be reconciled. -/
theorem crash_unreconciled :
    let gone : Inspector := ⟨fun _ => some false, fun _ => none, fun _ => none⟩
    let startUp : Incident := .reconcileOrphans gone ⟨9, some "300"⟩ fun _ => true
    ∀ history ∈ [launched ++ [markDead], launched ++ [recordSample, startUp, markDead],
        launched.take 2 ++ [markDead]],
      ((home.after {} history).db.findEpoch firstEpoch).any (fun row =>
        row.generationId = sampleGeneration ∧ row.processState = .dead) ∧
      ¬ Reconciled firstEpoch (home.after {} history) (Home.runs nobody (fun _ => 5)
        (crashReconcileEpoch oneProcess sampleGeneration firstEpoch) (home.after {} history)) := by
  intro gone startUp history member
  simp only [List.mem_cons, List.not_mem_nil, or_false] at member
  rcases member with rfl | rfl | rfl
  · exact ⟨by decide +kernel, not_reconciled (.childRecordMissing sampleId.value)
      (by decide +kernel)⟩
  · exact ⟨by decide +kernel, not_reconciled (.childRecordMissing sampleId.value)
      (by decide +kernel)⟩
  · exact ⟨by decide +kernel, not_reconciled .missingIncarnationMeta (by decide +kernel)⟩

end Nelix.Router
