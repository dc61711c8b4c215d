import Nelix.Store.EpochRuns
import Nelix.Store.LedgerRuns
import Nelix.Core.Program
import Nelix.Core.Traverse

/-!
# When a generation may retire

The reads of the store as effects, and the retirement oracle over them. The oracle is fed from
`listEpochs`, which skips the rows it cannot read.

## Main results

`oracle_faithful_iff`: in exactly which databases an empty list of blockers means that every row of
the generation is certified, confirmed and readable and that the pointer is NULL.

`oracle_faithful`: so it is in every database that calls produce, as long as no certification
writes a certificate that cannot be read back.
-/
namespace Nelix.Store

open Contracts Core

/-! ### Reads -/

/-- The read methods that the router's operator uses. -/
inductive Query
  | getGeneration (generationId : String)
  | listEpochs (generationId : String)
  | listEpochsStrict (generationId : String)
  | getEpochRetirementState (generationEpoch : String)
  | getGenerationConfirmedHighWater (generationEpoch : String)
  | getGenerationPersistedHighWater (generationEpoch : String)
  | listTerminalForEpoch (generationEpoch : String)
  | listStartsForEpoch (generationEpoch : String)
  deriving DecidableEq

/-- What a read returns. -/
abbrev Query.Value : Query → Type
  | getGeneration _ => GenerationRow
  | listEpochs _ | listEpochsStrict _ => List EpochRecord
  | getEpochRetirementState _ => RetirementState
  | getGenerationConfirmedHighWater _ | getGenerationPersistedHighWater _ => ℕ
  | listTerminalForEpoch _ => List TerminalRecord
  | listStartsForEpoch _ => List StartRow

/-- A read can raise. -/
abbrev Query.Answer (q : Query) : Type := Outcome q.Value

def Db.answer (db : Db) : (q : Query) → q.Answer
  | .getGeneration g => db.getGeneration g
  | .listEpochs g => db.listEpochs g
  | .listEpochsStrict g => db.listEpochsStrict g
  | .getEpochRetirementState e => db.getEpochRetirementState e
  | .getGenerationConfirmedHighWater e => db.getGenerationConfirmedHighWater e
  | .getGenerationPersistedHighWater e => .ok (db.getGenerationPersistedHighWater e)
  | .listTerminalForEpoch e => .ok (db.listTerminalForEpoch e)
  | .listStartsForEpoch e => .ok (db.listStartsForEpoch e)

/-! ### The oracle -/

/-- A reason why a generation may not retire yet. -/
inductive Blocker
  | hasCurrentEpoch
  | noEpochs
  | epochNotCertified (generationEpoch : String)
  | confirmedBelowFinal (generationEpoch : String) (confirmed : ℕ) (finalHighWater : Option ℕ)
  deriving DecidableEq

def Blocker.spelling : Blocker → String
  | hasCurrentEpoch => "has_current_epoch"
  | noEpochs => "no_epochs"
  | epochNotCertified e => s!"epoch_not_certified:{e}"
  | confirmedBelowFinal e confirmed final =>
    let shown := (final.map toString).getD "None"
    s!"confirmed_below_final:{e}({confirmed}<{shown})"

section Oracle

variable {E : Type} {R : E → Type} (ask : (q : Query) → Prog E R Raised q.Value)

/-- What a certified epoch has against retirement. -/
def unconfirmed (ep : EpochRecord) (confirmed : ℕ) : List Blocker :=
  if confirmed < ep.finalHighWater.getD 0 then
    [.confirmedBelowFinal ep.generationEpoch confirmed ep.finalHighWater]
  else []

/-- What one listed epoch has against retirement. -/
def epochBlockers (ep : EpochRecord) : Prog E R Raised (List Blocker) :=
  if ep.retirementState ≠ .certified then pure [.epochNotCertified ep.generationEpoch]
  else do
    let confirmed ← ask (.getGenerationConfirmedHighWater ep.generationEpoch)
    pure (unconfirmed ep confirmed)

/-- Goes through the listed epochs. -/
def listedBlockers : List EpochRecord → Prog E R Raised (List Blocker)
  | [] => pure []
  | ep :: rest => do
    let here ← epochBlockers ask ep
    let later ← listedBlockers rest
    pure (here ++ later)

/-- Every reason why the generation may not retire; the empty list is clear to retire. -/
def generationRetirementOracleBlockers (generationId : String) :
    Prog E R Raised (List Blocker) := do
  let gen ← ask (.getGeneration generationId)
  let current := if gen.currentEpoch ≠ none then [Blocker.hasCurrentEpoch] else []
  let epochs ← ask (.listEpochs generationId)
  if epochs = [] then pure (current ++ [.noEpochs])
  else do
    let listed ← listedBlockers ask epochs
    pure (current ++ listed)

end Oracle

/-- The oracle over a database that nobody else touches. -/
def Db.blockers (db : Db) (generationId : String) : Outcome (List Blocker) :=
  ((generationRetirementOracleBlockers (fun q => .perform q .done) generationId).run
    (fun (q : Query) (db : Db) => (db.answer q, db)) db).1

/-! ### What it answers -/

/-- Certified, and the router has confirmed everything up to its last number. -/
def Db.settledAt (db : Db) (generationEpoch : String) (state : RetirementState)
    (finalHighWater : Option ℕ) : Prop :=
  state = .certified ∧ finalHighWater.getD 0 ≤ (db.progressOf generationEpoch).confirmedHighWater

instance (db : Db) (e : String) (state : RetirementState) (final : Option ℕ) :
    Decidable (db.settledAt e state final) := by unfold Db.settledAt; infer_instance

variable {db : Db}

/-- The oracle reads a database as it is. -/
abbrev readFrom (q : Query) (db : Db) : q.Answer × Db := (db.answer q, db)

theorem run_ask {α : Type} (q : Query) (f : q.Value → Prog Query Query.Answer Raised α) :
    (Prog.perform q Prog.done >>= f).run readFrom db =
      match db.answer q with
      | .ok a => (f a).run readFrom db
      | .error x => (.error x, db) := by
  simp only [Prog.run_bind, Prog.run_perform, Prog.run_done]
  cases db.answer q <;> rfl

theorem run_epochBlockers (db : Db) {ep : EpochRecord} (named : ep.generationEpoch ≠ "") :
    ∃ found, (epochBlockers (fun q => .perform q .done) ep).run readFrom db = (.ok found, db) ∧
      (found = [] ↔ db.settledAt ep.generationEpoch ep.retirementState ep.finalHighWater) := by
  by_cases certified : ep.retirementState = .certified
  · have read : db.answer (.getGenerationConfirmedHighWater ep.generationEpoch) =
        .ok (db.progressOf ep.generationEpoch).confirmedHighWater := by
      simp [Db.answer, Db.getGenerationConfirmedHighWater, requireText, require, named, bind,
        Except.bind, pure, Except.pure]
    refine ⟨unconfirmed ep (db.progressOf ep.generationEpoch).confirmedHighWater, ?_, ?_⟩
    · rw [epochBlockers, if_neg (by simp [certified]), run_ask, read]
      rfl
    · simp [unconfirmed, Db.settledAt, certified]
  · refine ⟨[.epochNotCertified ep.generationEpoch], ?_, by simp [Db.settledAt, certified]⟩
    rw [epochBlockers, if_pos certified]
    rfl

theorem run_listedBlockers (db : Db) {epochs : List EpochRecord}
    (named : ∀ ep ∈ epochs, ep.generationEpoch ≠ "") :
    ∃ found, (listedBlockers (fun q => .perform q .done) epochs).run readFrom db =
        (.ok found, db) ∧
      (found = [] ↔ ∀ ep ∈ epochs,
        db.settledAt ep.generationEpoch ep.retirementState ep.finalHighWater) := by
  induction epochs with
  | nil => exact ⟨[], rfl, by simp⟩
  | cons ep rest ih =>
    obtain ⟨here, ranHere, emptyHere⟩ := run_epochBlockers db (named ep (by simp))
    obtain ⟨later, ranLater, emptyLater⟩ :=
      ih fun other member => named other (List.mem_cons_of_mem ep member)
    refine ⟨here ++ later, ?_, ?_⟩
    · rw [listedBlockers, Prog.run_bind, ranHere]
      simp only [Prog.run_bind, ranLater]
      rfl
    · simp [List.append_eq_nil_iff, emptyHere, emptyLater]

/-! ### The rows behind the list -/

theorem mem_epochRows {generationId : String} {row : EpochRow} :
    row ∈ db.epochRows generationId ↔
      row ∈ db.epochs.rows ∧ row.generationId = generationId := by
  simp [Db.epochRows, List.mem_insertionSort]

/-- A record carries the columns of its row. -/
theorem decode_eq_some {row : EpochRow} {ep : EpochRecord} (read : row.decode = some ep) :
    ep.generationEpoch = row.generationEpoch ∧ ep.generationId = row.generationId ∧
      ep.processState = row.processState ∧ ep.retirementState = row.retirementState ∧
      ep.finalHighWater = row.finalHighWater ∧ ep.incarnationMeta = row.incarnationMeta := by
  unfold EpochRow.decode at read
  split at read
  · cases read
  · rw [Option.map_eq_some_iff] at read
    obtain ⟨certificate, -, rfl⟩ := read
    exact ⟨rfl, rfl, rfl, rfl, rfl, rfl⟩

theorem listEpochs_ok {generationId : String} {epochs : List EpochRecord} :
    db.listEpochs generationId = .ok epochs ↔
      generationId ≠ "" ∧ (db.epochRows generationId).filterMap EpochRow.decode = epochs := by
  simp only [Db.listEpochs, requireText, bind_ok, require_ok, pure, Except.pure, Except.ok.injEq,
    exists_const]

/-- Whatever the strict listing says was read from a row. -/
theorem row_of_listed {generationId : String} {epochs : List EpochRecord} {ep : EpochRecord}
    (listed : db.listEpochsStrict generationId = .ok epochs) (member : ep ∈ epochs) :
    ∃ row ∈ db.epochs.rows, row.generationId = generationId ∧ row.decode = some ep := by
  simp only [Db.listEpochsStrict, bind_ok, demand_ok] at listed
  obtain ⟨-, -, decoded⟩ := listed
  obtain ⟨row, here, read⟩ := mem_of_mapM decoded member
  obtain ⟨there, owned⟩ := mem_epochRows.mp here
  exact ⟨row, there, owned, read⟩

/-- The strict listing goes through when every row of the generation can be read. -/
theorem listEpochsStrict_ok {generationId : String} :
    (∃ epochs, db.listEpochsStrict generationId = .ok epochs) ↔ generationId ≠ "" ∧
      ∀ row ∈ db.epochs.rows, row.generationId = generationId → row.decode.isSome := by
  simp only [Db.listEpochsStrict, requireText, bind_ok, require_ok, demand_ok, exists_const]
  constructor
  · rintro ⟨epochs, named, decoded⟩
    refine ⟨named, fun row member owned => ?_⟩
    obtain ⟨ep, -, decodes⟩ := shown_of_mapM decoded (mem_epochRows.mpr ⟨member, owned⟩)
    rw [decodes]
    rfl
  · rintro ⟨named, readable⟩
    obtain ⟨epochs, decoded⟩ := mapM_isSome fun row here =>
      readable row (mem_epochRows.mp here).1 (mem_epochRows.mp here).2
    exact ⟨epochs, named, decoded⟩

/-- The epochs of a listing are told apart by their names. -/
theorem listing_distinct {generationId : String} {epochs : List EpochRecord}
    (listed : db.listEpochs generationId = .ok epochs) :
    (epochs.map EpochRecord.generationEpoch).Nodup := by
  rw [← (listEpochs_ok.mp listed).2]
  refine (sublist_keys EpochRow.generationEpoch (fun _ _ read => (decode_eq_some read).1) _).nodup ?_
  have sorted := List.perm_insertionSort (fun a b : EpochRow => a.createdAt ≤ b.createdAt)
    (db.epochs.rows.filter (·.generationId = generationId))
  refine (sorted.map EpochRow.generationEpoch).nodup_iff.mpr ?_
  exact (List.filter_sublist.map EpochRow.generationEpoch).nodup db.epochs.distinct

/-- When the oracle finds nothing. -/
theorem blockers_eq_nil (shaped : EpochsShaped db) {generationId : String} :
    db.blockers generationId = .ok [] ↔
      ∃ gen epochs, db.getGeneration generationId = .ok gen ∧ gen.currentEpoch = none ∧
        db.listEpochs generationId = .ok epochs ∧ epochs ≠ [] ∧
        ∀ ep ∈ epochs, db.settledAt ep.generationEpoch ep.retirementState ep.finalHighWater := by
  unfold Db.blockers generationRetirementOracleBlockers
  rw [run_ask]
  simp only [Db.answer]
  cases read : db.getGeneration generationId with
  | error raised => simp
  | ok gen =>
    dsimp only
    rw [run_ask]
    simp only [Db.answer]
    cases listed : db.listEpochs generationId with
    | error raised => simp
    | ok epochs =>
      by_cases none : epochs = []
      · simp [none, pure]
      · have named : ∀ ep ∈ epochs, ep.generationEpoch ≠ "" := by
          intro ep member
          rw [← (listEpochs_ok.mp listed).2, List.mem_filterMap] at member
          obtain ⟨row, here, decoded⟩ := member
          rw [(decode_eq_some decoded).1]
          exact (shaped row (mem_epochRows.mp here).1).1
        obtain ⟨found, ran, empty⟩ := run_listedBlockers db named
        simp [none, pure, Prog.run_bind, ran, empty, List.append_eq_nil_iff]

/-! ### What it leaves out -/

/-- No blockers means that every row of the generation is settled and readable and that the
pointer is NULL. -/
def Db.OracleFaithful (db : Db) (generationId : String) : Prop :=
  db.blockers generationId = .ok [] →
    (∀ row ∈ db.epochs.rows, row.generationId = generationId →
      db.settledAt row.generationEpoch row.retirementState row.finalHighWater ∧
        row.decode.isSome) ∧
    ∀ gen, db.findGeneration generationId = some gen → gen.currentEpoch = none

/-- Something that can be read is against retirement already. -/
def Db.OtherwiseBlocked (db : Db) (generationId : String) : Prop :=
  ∀ gen, db.getGeneration generationId = .ok gen →
    gen.currentEpoch ≠ none ∨
    (∀ row ∈ db.epochs.rows, row.generationId = generationId → row.decode = none) ∨
    ∃ row ∈ db.epochs.rows, row.generationId = generationId ∧ row.decode ≠ none ∧
      ¬ db.settledAt row.generationEpoch row.retirementState row.finalHighWater

theorem getGeneration_ok {generationId : String} {gen : GenerationRow} :
    db.getGeneration generationId = .ok gen ↔ generationId ≠ "" ∧
      db.findGeneration generationId = some gen ∧ gen.readable = true := by
  simp only [Db.getGeneration, requireText, Db.requireGeneration, bind_ok, require_ok, demand_ok,
    pure, Except.pure, Except.ok.injEq, exists_const]
  constructor
  · rintro ⟨named, row, found, readable, rfl⟩
    exact ⟨named, found, readable⟩
  · rintro ⟨named, found, readable⟩
    exact ⟨named, gen, found, readable, rfl⟩

/-- The oracle answers for the rows it can read, and for no others. -/
theorem faithful_iff (shaped : EpochsShaped db) (generationId : String) :
    db.OracleFaithful generationId ↔
      (∀ row ∈ db.epochs.rows, row.generationId = generationId → row.decode.isSome) ∨
        db.OtherwiseBlocked generationId := by
  constructor
  · -- Where a row is unreadable and nothing else blocks, the oracle finds nothing.
    intro faithful
    by_contra neither
    rw [not_or] at neither
    obtain ⟨unreadable, clear⟩ := neither
    apply unreadable
    simp only [Db.OtherwiseBlocked, not_forall, not_or, not_not, not_exists, not_and] at clear
    obtain ⟨gen, read, pointer, ⟨seen, member, owned, readable⟩, settled⟩ := clear
    obtain ⟨named, -, -⟩ := getGeneration_ok.mp read
    refine fun row here owns => ((faithful ?_).1 row here owns).2
    refine (blockers_eq_nil shaped).mpr ⟨gen, _, read, pointer, listEpochs_ok.mpr ⟨named, rfl⟩,
      ?_, ?_⟩
    · intro empty
      obtain ⟨ep, decoded⟩ := Option.ne_none_iff_exists'.mp readable
      have listed : ep ∈ (db.epochRows generationId).filterMap EpochRow.decode :=
        List.mem_filterMap.mpr ⟨seen, mem_epochRows.mpr ⟨member, owned⟩, decoded⟩
      rw [empty] at listed
      cases listed
    · intro ep listed
      obtain ⟨row, here, decoded⟩ := List.mem_filterMap.mp listed
      obtain ⟨epoch, -, -, state, final, -⟩ := decode_eq_some decoded
      obtain ⟨member, owned⟩ := mem_epochRows.mp here
      rw [epoch, state, final]
      exact settled row member owned (by simp [decoded])
  · rintro condition nothing
    obtain ⟨gen, epochs, read, pointer, listed, some, settled⟩ :=
      (blockers_eq_nil shaped).mp nothing
    obtain ⟨named, found, -⟩ := getGeneration_ok.mp read
    have ofRow : ∀ row ∈ db.epochs.rows, row.generationId = generationId → row.decode.isSome →
        db.settledAt row.generationEpoch row.retirementState row.finalHighWater := by
      intro row member owned readable
      obtain ⟨ep, decoded⟩ := Option.isSome_iff_exists.mp readable
      obtain ⟨epoch, -, -, state, final, -⟩ := decode_eq_some decoded
      rw [← epoch, ← state, ← final]
      refine settled ep ((listEpochs_ok.mp listed).2 ▸ ?_)
      exact List.mem_filterMap.mpr ⟨row, mem_epochRows.mpr ⟨member, owned⟩, decoded⟩
    have pointers : ∀ gen, db.findGeneration generationId = .some gen → gen.currentEpoch = none := by
      intro other held
      rw [found, Option.some.injEq] at held
      exact held ▸ pointer
    refine ⟨?_, pointers⟩
    rcases condition with readable | blocked
    · exact fun row member owned =>
        ⟨ofRow row member owned (readable row member owned), readable row member owned⟩
    · -- Nothing readable blocks, so this case does not arise.
      exfalso
      rcases blocked gen read with pointed | unread | ⟨row, member, owned, readable, unsettled⟩
      · exact pointed pointer
      · apply some
        rw [← (listEpochs_ok.mp listed).2, List.filterMap_eq_nil_iff]
        exact fun row here =>
          unread row (mem_epochRows.mp here).1 (mem_epochRows.mp here).2
      · exact unsettled (ofRow row member owned (Option.ne_none_iff_isSome.mp readable))

/-! ### Certificates that are read back -/

/-- The reader accepts what the call writes: a certification brings no certificate or a text that
is not empty. -/
def Call.readsBack : Call → Bool
  | .setEpochRetirement _ .certified (.text value) _ => value ≠ ""
  | .setEpochRetirement _ .certified (.bytes _) _ => false
  | _ => true

/-- Every row of the epochs can be read. -/
def AllReadable (db : Db) : Prop := ∀ row ∈ db.epochs.rows, row.decode.isSome

theorem decode_isSome {row : EpochRow} :
    row.decode.isSome ↔ row.incarnationMeta ≠ some "" ∧ row.certificate.read.isSome := by
  unfold EpochRow.decode
  split <;> simp_all

/-- A call that writes what can be read back leaves a row readable. -/
theorem EpochMove.readable {call : Call} {row row' : EpochRow} (move : EpochMove call row row')
    (back : call.readsBack = true) (before : row.certificate.read.isSome) :
    row'.certificate.read.isSome := by
  cases move with
  | promoted expected incarnation here starting given => exact before
  | process state here => exact before
  | reconciled here => exact before
  | retirement state certificate final cell high here bound checked =>
    cases state with
    | opened => exact before
    | quiescing => exact before
    | certified =>
      -- What was bound is what will be read.
      subst here
      simp only [Db.boundCertificate, if_true] at bound
      cases certificate with
      | none =>
        cases bound
        rfl
      | text value =>
        cases bound
        simp only [Call.readsBack, decide_eq_true_eq] at back
        simp [Db.retired, TextCell.read, back]
      | bytes value => simp [Call.readsBack] at back
      | unsupported => simp [CertificateArg.bind] at bound

/-- The rows of a generation stay readable. -/
theorem readable_step {db' : Db} {call : Call} {generationId : String} (shaped : EpochsShaped db)
    (done : call.apply db = .ok db') (back : call.readsBack = true)
    (readable : ∀ row ∈ db.epochs.rows, row.generationId = generationId → row.decode.isSome) :
    ∀ row ∈ db'.epochs.rows, row.generationId = generationId → row.decode.isSome := by
  have after : EpochsShaped db' := by
    have step := shaped.step call
    simpa only [machine, settled, done] using step
  intro row' member owned
  rw [decode_isSome]
  refine ⟨(after row' member).2, ?_⟩
  rcases Call.epoch_cases done member with old | ⟨row, old, move⟩ | ⟨_, -, -, -, -, -, blank, -⟩
  · exact (decode_isSome.mp (readable row' old owned)).2
  · exact move.readable back
      (decode_isSome.mp (readable row old (move.key.2.symm.trans owned))).2
  · rw [blank]
    rfl

theorem AllReadable.step {call : Call} (shaped : EpochsShaped db) (readable : AllReadable db)
    (back : call.readsBack = true) : AllReadable (machine.step db call).1 := by
  simp only [machine, settled]
  cases done : call.apply db with
  | error raised => exact readable
  | ok db' =>
    intro row member
    exact readable_step shaped done back (fun row here _ => readable row here) row member rfl

theorem allReadable_after {calls : List Call} (back : ∀ call ∈ calls, call.readsBack = true) :
    AllReadable (machine.after {} calls) := by
  have along : ∀ db, machine.Along (fun _ call => call.readsBack = true) db calls := by
    induction calls with
    | nil => exact fun db => trivial
    | cons call rest ih =>
      exact fun db => ⟨back call (by simp), ih (fun c later => back c (.tail _ later)) _⟩
  exact (machine.invariant_along (fun db => EpochsShaped db ∧ AllReadable db)
    (fun db call held guarded => ⟨held.1.step call, held.2.step held.1 guarded⟩)
    ⟨epochsShaped_after [], fun row member => by cases member⟩ (along {})).2

/-- In every database that calls produce, the oracle speaks for a generation exactly when all its
rows can be read or one that can be read blocks already; and all can be read, in every generation,
when no call certified with a certificate that cannot be read back. -/
theorem oracle_faithful (calls : List Call) :
    (∀ g, (machine.after {} calls).OracleFaithful g ↔
      (∀ row ∈ (machine.after {} calls).epochs.rows, row.generationId = g → row.decode.isSome) ∨
        (machine.after {} calls).OtherwiseBlocked g) ∧
    ((∀ call ∈ calls, call.readsBack = true) →
      ∀ g, (machine.after {} calls).OracleFaithful g) := by
  have shaped := epochsShaped_after calls
  refine ⟨faithful_iff shaped, fun back g => (faithful_iff shaped g).mpr (.inl ?_)⟩
  exact fun row member _ => allReadable_after back row member

/-- A generation with one certified epoch that is readable and one that is not. -/
def hiddenEpoch : List Call :=
  [.createGeneration sampleGeneration none .draining none (.finite 1),
    .insertEpoch firstEpoch sampleGeneration none (.finite 1),
    .insertEpoch secondEpoch sampleGeneration none (.finite 2),
    .setEpochRetirement firstEpoch .certified (.text "c") (some 0),
    .setEpochRetirement secondEpoch .certified (.text "") (some 5)]

theorem oracle_faithful_plain :
    ∀ g, (machine.after {} (hiddenEpoch.take 4)).OracleFaithful g :=
  (oracle_faithful (hiddenEpoch.take 4)).2 (by decide +kernel)

/-- The second epoch is five receipts short of its final number, and the oracle does not see it. -/
theorem hidden_epoch_unblocked :
    let db := machine.after {} hiddenEpoch
    db.blockers sampleGeneration = .ok [] ∧
      ∃ row ∈ db.epochs.rows, row.generationId = sampleGeneration ∧
        ¬ db.settledAt row.generationEpoch row.retirementState row.finalHighWater := by
  decide +kernel

end Nelix.Store
