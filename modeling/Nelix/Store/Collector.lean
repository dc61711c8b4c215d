import Nelix.Store.BoardRuns
import Nelix.Store.Retirement

/-!
# Reclaiming retired generations

The collector of retired generations as a program over single reads and transactions, so that any
writer may come between two of them. Everything it decides, it decides before the first deletion;
a deletion looks at nothing.

## Main results

`collects_settled`: as long as nobody takes a listed generation out of its final state, publishes
into one that was found settled or mints a listed id again, every deletion takes rows of a retired
generation only and no result that is still on a board.

`collects_unseen`: a result that is published after the look at the board is deleted unseen.
-/
namespace Nelix.Store

open Contracts Core

/-! ### The program -/

/-- What the collector does to the store: reads, and one transaction for each session. -/
inductive GcEffect
  | listGenerations
  | oracle (q : Query)
  | unresolved (generationId : String)
  | startsOf (generationId : String)
  | deleteSession (sessionId : String) (pastHorizon : Bool)
  deriving DecidableEq

/-- A deletion returns how many receipts and how many sessions it took. -/
abbrev GcEffect.Value : GcEffect → Type
  | listGenerations => List GenerationRow
  | oracle q => q.Value
  | unresolved _ => Bool
  | startsOf _ => List (String × ℚ)
  | deleteSession .. => ℕ × ℕ

abbrev GcEffect.Answer (e : GcEffect) : Type := Outcome e.Value

abbrev Collector (α : Type) := Prog GcEffect GcEffect.Answer Raised α

structure GcStats where
  generationsProcessed : ℕ := 0
  terminalsDeleted : ℕ := 0
  sessionsDeleted : ℕ := 0
  startsDeleted : ℕ := 0
  startsPreserved : ℕ := 0
  deriving DecidableEq

def gcAsk (e : GcEffect) : Collector e.Value := .perform e .done

/-- The horizon in seconds; none where no age passes it. -/
def replayHorizon (value : Reading) : Outcome (Option ℚ) :=
  match value with
  | .finite horizon => do
    require (0 ≤ horizon) .invalidRequest
      s!"replay_horizon_seconds must be a non-negative number: {horizon}"
    return some horizon
  | .notFinite shown => do
    require (shown ≠ "-inf") .invalidRequest
      s!"replay_horizon_seconds must be a non-negative number: {shown}"
    return none
  | .notNumber shown => refuse .invalidRequest
      s!"replay_horizon_seconds must be a non-negative number: {shown}"
  | .missing => refuse .invalidRequest
      "replay_horizon_seconds must be a non-negative number: None"

/-- Deletes the listed sessions with their receipts, and the starts that are old enough. -/
def gcSessions (now : ℚ) (horizon : Option ℚ) : GcStats → List (String × ℚ) → Collector GcStats
  | stats, [] => pure stats
  | stats, (sid, createdAt) :: rest => do
    let pastHorizon := horizon.any fun seconds => seconds < now - createdAt
    let (terminals, sessions) ← gcAsk (.deleteSession sid pastHorizon)
    gcSessions now horizon
      { stats with
        terminalsDeleted := stats.terminalsDeleted + terminals
        sessionsDeleted := stats.sessionsDeleted + sessions
        startsDeleted := stats.startsDeleted + (if pastHorizon then 1 else 0)
        startsPreserved := stats.startsPreserved + (if pastHorizon then 0 else 1) } rest

/-- What follows the oracle's answer for a retired generation. -/
def gcCleared (now : ℚ) (horizon : Option ℚ) (stats : GcStats) (generationId : String)
    (blockers : List Blocker) : Collector GcStats :=
  if blockers ≠ [] then pure stats
  else do
    let unresolved ← gcAsk (.unresolved generationId)
    if unresolved then pure stats
    else do
      let rows ← gcAsk (.startsOf generationId)
      gcSessions now horizon stats rows

def gcGenerations (now : ℚ) (horizon : Option ℚ) :
    GcStats → List GenerationRow → Collector GcStats
  | stats, [] => pure stats
  | stats, gen :: rest =>
    if gen.lifecycleState ≠ .retired then gcGenerations now horizon stats rest
    else do
      let stats := { stats with generationsProcessed := stats.generationsProcessed + 1 }
      let blockers ←
        generationRetirementOracleBlockers (fun q => gcAsk (.oracle q)) gen.generationId
      let stats ← gcCleared now horizon stats gen.generationId blockers
      gcGenerations now horizon stats rest

/-- Reclaims the rows of retired generations that are certified, confirmed and off every board. -/
def gcRetiredGenerations (replayHorizonSeconds clock : Reading) : Collector GcStats := do
  let horizon ← .done (replayHorizon replayHorizonSeconds)
  let now ← .done (timestamp clock "clock")
  let gens ← gcAsk .listGenerations
  gcGenerations now horizon {} gens

namespace Db

/-- A receipt of the generation is still on its owner's board. -/
def unresolved (db : Db) (generationId : String) : Bool :=
  db.terminal.rows.any fun row => row.standing = .onBoard &&
    (db.findStart row.sessionId).any fun start => start.generationId = some generationId

def startsOf (db : Db) (generationId : String) : List (String × ℚ) :=
  (db.starts.rows.filter fun start => start.generationId = some generationId).map fun start =>
    (start.sessionId, start.createdAt)

/-- How the database answers the collector. -/
def gcAnswer (db : Db) : (e : GcEffect) → e.Answer × Db
  | .listGenerations => (db.listGenerations, db)
  | .oracle q => (db.answer q, db)
  | .unresolved g => (.ok (db.unresolved g), db)
  | .startsOf g => (.ok (db.startsOf g), db)
  | .deleteSession sid past =>
    (.ok ((db.terminal.find? sid).isSome.toNat, (db.sessions.find? sid).isSome.toNat),
      db.collectSession sid past)

end Db

/-! ### Among other writers -/

/-- How far the collector has come: the retired generations it has listed and not yet looked at,
the one it is at, whether that one was found off every board, and the sessions it will delete. -/
structure Sweep where
  ahead : List String := []
  current : Option String := none
  cleared : Bool := false
  targets : Option (List String) := none

def Sweep.after (s : Sweep) : (e : GcEffect) → e.Answer → Sweep
  | .listGenerations, .ok rows =>
    { ahead := (rows.filter fun gen => gen.lifecycleState = .retired).map
        GenerationRow.generationId }
  | .oracle (.getGeneration g), _ =>
    { ahead := s.ahead.filter (· ≠ g), current := some g }
  | .unresolved _, .ok false => { s with cleared := true }
  | .startsOf _, .ok rows => { s with targets := some (rows.map Prod.fst) }
  | _, _ => s

/-- A receipt of the session will be deleted without another look at it. -/
def Sweep.threatens (s : Sweep) (start : StartRow) (sessionId : String) : Prop :=
  s.cleared = true ∧ (∃ g ∈ s.current, start.generationId = some g) ∧
    ∀ sids ∈ s.targets, sessionId ∈ sids

/-- The call takes a retired generation out of its final state. -/
def Call.reopens (g : String) : Call → Bool
  | .setGenerationLifecycleState g' state => g' = g && state ≠ .retired
  | .setGenerationLifecycleStateAtomic old new newStateOld expectedOld expectedNew =>
    (old = g && expectedOld = .retired && newStateOld ≠ .retired) ||
      (new = g && expectedNew = .retired)
  | _ => false

/-- What the other writers leave alone while the collector is at work: the state of the
generations it has listed, and the results it has looked at. Ids are minted fresh. -/
structure Sweep.Undisturbed (s : Sweep) (db : Db) (call : Call) : Prop where
  closed : ∀ g ∈ s.ahead ++ s.current.toList, call.reopens g = false
  quiet : ∀ sid result clock start, call = .putTerminal sid result clock →
    db.joined sid = some start → db.terminal.find? sid = none → ¬ s.threatens start sid
  fresh : ∀ sids ∈ s.targets, ∀ sid ∈ sids, call.mints sid = false

/-- The collector in a database that others write to, within `guard`; every effect may fail. -/
def collecting (guard : Sweep → Db → Call → Prop) :
    Setting GcEffect GcEffect.Answer (Db × Sweep) where
  rely := Relation.ReflTransGen fun w w' =>
    ∃ call, guard w.2 w.1 call ∧ w' = ((machine.step w.1 call).1, w.2)
  act e w r w' := w'.2 = w.2.after e r ∧
    ((∃ raised, r = .error raised ∧ w'.1 = w.1) ∨ (r, w'.1) = w.1.gcAnswer e)
  refl _ := .refl
  trans := .trans

/-- Everything that is stored under the session belongs to a retired generation, and a receipt
that is there is on no board. -/
structure Db.Reclaimable (db : Db) (sessionId : String) : Prop where
  retired : ∀ start, db.findStart sessionId = some start → ∃ g gen,
    start.generationId = some g ∧ db.findGeneration g = some gen ∧ gen.lifecycleState = .retired
  owned : (db.sessions.find? sessionId).isSome ∨ (db.terminal.find? sessionId).isSome →
    (db.findStart sessionId).isSome
  off : ∀ row, db.terminal.find? sessionId = some row → row.standing ≠ .onBoard

/-- A deletion is performed where its rows are reclaimable. -/
def DeletesSettled : GcEffect → Db × Sweep → Prop
  | .deleteSession sid _, w => w.1.Reclaimable sid
  | _, _ => True

variable {db db' : Db} {call : Call}

/-! ### What the others leave -/

theorem Call.retired_stays (done : call.apply db = .ok db') {g : String}
    (closed : call.reopens g = false)
    (retired : ∃ gen, db.findGeneration g = some gen ∧ gen.lifecycleState = .retired) :
    ∃ gen, db'.findGeneration g = some gen ∧ gen.lifecycleState = .retired := by
  obtain ⟨gen, found, final⟩ := retired
  have named := Db.generationId_of_findGeneration found
  simp only [Db.findGeneration] at found ⊢
  cases Call.generationsEffect done with
  | kept generations => exact ⟨gen, generations ▸ found, final⟩
  | created row created here unserved generations =>
    have fresh := Table.fresh_of_insert generations
    refine ⟨gen, ?_, final⟩
    rw [Table.find?_insert generations, if_neg ?_]
    · exact found
    · intro same
      rw [same, found] at fresh
      cases fresh
  | moved row row' held move generations =>
    rw [generations]
    by_cases same : row'.generationId = g
    · -- The move is one of this generation: only its lifecycle could be touched.
      subst same
      have here : db.generations.find? row'.generationId = some row := move.key ▸ held
      obtain rfl : gen = row := Option.some.inj (found.symm.trans here)
      refine ⟨row', Table.find?_update_self here, ?_⟩
      cases move with
      | lifecycle state here' =>
        simp only [here', Call.reopens, decide_true, Bool.true_and, decide_eq_false_iff_not,
          not_not] at closed
        exact closed
      | served e incarnation here' => exact final
      | cleared here' => exact final
      | pointed e here' => exact final
      | reconciled e here' points => exact final
    · exact ⟨gen, (Table.find?_update_ne same).trans found, final⟩
  | flipped old new newStateOld here foundOld foundNew generations =>
    subst here
    simp only [Call.reopens, Bool.or_eq_false_iff, Bool.and_eq_false_iff, decide_eq_false_iff_not,
      not_not] at closed
    have apart : new.generationId ≠ g := by
      intro same
      have one : gen = new := Option.some.inj (found.symm.trans (same ▸ foundNew))
      exact closed.2.elim (fun other => other same) fun other => other (one ▸ final)
    rw [generations]
    have skips : ((db.generations.update { old with lifecycleState := newStateOld }).update
        { new with lifecycleState := .active }).find? g =
          (db.generations.update { old with lifecycleState := newStateOld }).find? g :=
      Table.find?_update_ne apart
    rw [skips]
    by_cases same : old.generationId = g
    · have one : gen = old := Option.some.inj (found.symm.trans (same ▸ foundOld))
      have stays : newStateOld = .retired := by
        rcases closed.1 with (other | other) | stays
        · exact absurd same other
        · exact absurd (one ▸ final) other
        · exact stays
      subst same
      exact ⟨_, Table.find?_update_self foundOld, stays⟩
    · exact ⟨gen, (Table.find?_update_ne same).trans found, final⟩

/-- A start was there before, bound to no other generation, or its id was just minted. -/
theorem Call.start_before (done : call.apply db = .ok db') {sid : String} {start' : StartRow}
    (found : db'.findStart sid = some start') :
    (call.mints sid = true ∧ db.findStart sid = none) ∨ ∃ start, db.findStart sid = some start ∧
      (start.generationId = none ∨ start'.generationId = start.generationId) := by
  rw [Db.findStart] at found
  cases Call.startsEffect done with
  | kept starts sessions => exact .inr ⟨start', by rw [Db.findStart, ← starts, found], .inr rfl⟩
  | created start spec creates held alive identified starts sessions =>
    exact .inr ⟨start', by rw [Db.findStart, ← starts, found], .inr rfl⟩
  | reserved request minted clock now reserves asked fresh inserted sessions =>
    rw [Table.find?_insert inserted] at found
    split at found
    · rename_i same
      refine .inl ⟨by simpa [reserves, Call.mints, Keyed.key, Db.freshStart] using same, ?_⟩
      exact same ▸ Table.fresh_of_insert inserted
    · exact .inr ⟨start', found, .inr rfl⟩
  | moved old new held move starts sessions =>
    rw [starts, Table.find?_update] at found
    split at found
    · rename_i same
      have here : db.findStart sid = some old := by
        rw [← held, ← move.sessionId]
        exact congrArg _ same.symm
      rw [show db.starts.find? sid = some old from here, Option.map_some, Option.some.injEq] at found
      subst found
      refine .inr ⟨old, here, ?_⟩
      cases move with
      | bound g e assigns starting compared valid =>
        exact compared.imp id fun eq => eq.symm
      | committed alive assigned => exact .inr rfl
      | failed reason starting unused => exact .inr rfl
    · exact .inr ⟨start', found, .inr rfl⟩
  | collected other past collects starts sessions =>
    rcases starts with same | erased
    · exact .inr ⟨start', by rw [Db.findStart, ← same, found], .inr rfl⟩
    · rw [erased, Table.find?_erase] at found
      split at found
      · cases found
      · exact .inr ⟨start', found, .inr rfl⟩

/-- A receipt on the board was there before, or was just published. -/
theorem Call.onBoard_before (done : call.apply db = .ok db') {row : TerminalRow}
    (member : row ∈ db'.terminal.rows) (onBoard : row.standing = .onBoard) :
    row ∈ db.terminal.rows ∨ ∃ result clock start, call = .putTerminal row.sessionId result clock ∧
      db.joined row.sessionId = some start ∧ db.terminal.find? row.sessionId = none ∧
        db'.findStart row.sessionId = some start := by
  cases Call.boardEffect done with
  | kept terminal seqs => exact .inl (terminal ▸ member)
  | published sid result clock here start new joined named schemaOn schema publishes seqs =>
    rcases (Table.mem_insert publishes.terminal).mp member with old | rfl
    · exact .inl old
    · subst named
      refine .inr ⟨result, clock, start, here, joined, Table.fresh_of_insert publishes.terminal, ?_⟩
      rw [Db.findStart, publishes.starts]
      exact (joined_eq_some.mp joined).2
  | retired starts sessions retires moves rests => exact .inl (retires.before member onBoard)
  | collected sid past here =>
    subst here
    simp only [Call.apply, Except.ok.injEq] at done
    subst done
    exact .inl (List.mem_of_mem_filter member)

/-! ### What holds wherever the collector is -/

structure Tidy (w : Db × Sweep) : Prop where
  backed : w.1.Backed
  retired : ∀ g ∈ w.2.ahead ++ w.2.current.toList,
    ∃ gen, w.1.findGeneration g = some gen ∧ gen.lifecycleState = .retired
  off : ∀ row ∈ w.1.terminal.rows, ∀ start, w.1.findStart row.sessionId = some start →
    w.2.threatens start row.sessionId → row.standing ≠ .onBoard
  owned : ∀ sids ∈ w.2.targets, ∀ sid ∈ sids, ∀ start, w.1.findStart sid = some start →
    ∃ g ∈ w.2.current, start.generationId = some g

/-- The start of a receipt is bound to a generation. -/
theorem Db.Backed.assigned (backed : db.Backed) {row : TerminalRow}
    (member : row ∈ db.terminal.rows) :
    ∃ start, db.findStart row.sessionId = some start ∧ start.generationId ≠ none := by
  obtain ⟨held, -⟩ := backed.receipts row member
  obtain ⟨start, found, identified⟩ := backed.sessions row.sessionId held
  refine ⟨start, found, fun unassigned => ?_⟩
  simp [StartRow.identified, unassigned] at identified

/-- Other writers that leave the collector undisturbed keep what it relies on. -/
theorem Tidy.others {w : Db × Sweep} (tidy : Tidy w) (undisturbed : w.2.Undisturbed w.1 call) :
    Tidy ((machine.step w.1 call).1, w.2) := by
  have backed' := tidy.backed.step call
  simp only [machine, settled] at backed' ⊢
  cases done : call.apply w.1 with
  | error raised => exact tidy
  | ok db' =>
    rw [done] at backed'
    refine ⟨backed', fun g member => ?_, fun row member start' found threatened onBoard => ?_,
      fun sids listed sid member start' found => ?_⟩
    · exact Call.retired_stays done (undisturbed.closed g member) (tidy.retired g member)
    · rcases Call.onBoard_before done member onBoard with old |
        ⟨result, clock, start, here, joined, fresh, same⟩
      · -- The receipt is older, and so is the generation of its start.
        obtain ⟨start, before, assigned⟩ := tidy.backed.assigned old
        rcases Call.start_before done found with ⟨-, absent⟩ | ⟨other, before', bound⟩
        · rw [before] at absent
          cases absent
        · obtain rfl : start = other := Option.some.inj (before.symm.trans before')
          have generation := bound.resolve_left assigned
          refine tidy.off row old start before ?_ onBoard
          simpa only [Sweep.threatens, generation] using threatened
      · obtain rfl : start = start' := Option.some.inj (same.symm.trans found)
        exact undisturbed.quiet _ _ _ _ here joined fresh threatened
    · rcases Call.start_before done found with ⟨minted, -⟩ | ⟨start, before, bound⟩
      · rw [undisturbed.fresh sids listed sid member] at minted
        cases minted
      · obtain ⟨g, current, generation⟩ := tidy.owned sids listed sid member start before
        rcases bound with none | same
        · rw [none] at generation
          cases generation
        · exact ⟨g, current, same.trans generation⟩

abbrev amongOthers : Setting GcEffect GcEffect.Answer (Db × Sweep) :=
  collecting Sweep.Undisturbed

theorem Tidy.rely {w w' : Db × Sweep} (tidy : Tidy w) (moves : amongOthers.rely w w') :
    Tidy w' ∧ w'.2 = w.2 := by
  induction moves with
  | refl => exact ⟨tidy, rfl⟩
  | tail _ last ih =>
    obtain ⟨call, undisturbed, rfl⟩ := last
    exact ⟨ih.1.others undisturbed, ih.2⟩

/-- Where an effect belongs in the collector's course. -/
def GcEffect.ready : GcEffect → Sweep → Prop
  | .oracle (.getGeneration g), s => g ∈ s.ahead
  | .unresolved g, s => s.current = some g
  | .startsOf g, s => s.current = some g ∧ s.targets = none
  | _, _ => True

theorem mem_startsOf {g sid : String} {createdAt : ℚ} (listed : (sid, createdAt) ∈ db.startsOf g) :
    ∀ start, db.findStart sid = some start → start.generationId = some g := by
  intro start found
  simp only [Db.startsOf, List.mem_map, List.mem_filter, decide_eq_true_eq, Prod.mk.injEq] at listed
  obtain ⟨other, ⟨member, owned⟩, rfl, -⟩ := listed
  obtain rfl : other = start := Option.some.inj ((Table.find?_of_mem member).symm.trans found)
  exact owned

theorem off_of_resolved {g : String} (clear : db.unresolved g = false) {row : TerminalRow}
    (member : row ∈ db.terminal.rows) {start : StartRow}
    (found : db.findStart row.sessionId = some start) (owned : start.generationId = some g) :
    row.standing ≠ .onBoard := by
  intro onBoard
  simp only [Db.unresolved, List.any_eq_false, Bool.and_eq_true, decide_eq_true_eq] at clear
  exact clear row member ⟨onBoard, by simp [found, owned]⟩

theorem listGenerations_retired {rows : List GenerationRow} (done : db.listGenerations = .ok rows)
    {gen : GenerationRow} (listed : gen ∈ rows) :
    db.findGeneration gen.generationId = some gen := by
  simp only [Db.listGenerations, bind_ok, pure, Except.pure, Except.ok.injEq] at done
  obtain ⟨_, -, rfl⟩ := done
  exact Table.find?_of_mem ((List.mem_insertionSort _).mp listed)

theorem listGenerations_distinct {rows : List GenerationRow}
    (done : db.listGenerations = .ok rows) : (rows.map GenerationRow.generationId).Nodup := by
  simp only [Db.listGenerations, bind_ok, pure, Except.pure, Except.ok.injEq] at done
  obtain ⟨_, -, rfl⟩ := done
  exact ((List.perm_insertionSort _ _).map _).nodup_iff.mpr db.generations.distinct

/-- The collector's own steps keep what it relies on. -/
theorem Tidy.own {w w' : Db × Sweep} {e : GcEffect} {r : e.Answer} (tidy : Tidy w)
    (ready : e.ready w.2) (acts : amongOthers.act e w r w') : Tidy w' := by
  obtain ⟨db, s⟩ := w
  obtain ⟨db', s'⟩ := w'
  obtain ⟨sweep, effect⟩ := acts
  simp only at sweep effect ready
  subst sweep
  cases e with
  | listGenerations =>
    rcases effect with ⟨raised, rfl, rfl⟩ | answered
    · exact tidy
    · simp only [Db.gcAnswer, Prod.mk.injEq] at answered
      obtain ⟨read, rfl⟩ := answered
      cases r with
      | error raised => exact tidy
      | ok rows =>
        refine ⟨tidy.backed, fun g member => ?_, fun _ _ _ _ threatened => ?_,
          fun _ listed => by cases listed⟩
        · simp only [Sweep.after, Option.toList_none, List.append_nil, List.mem_map,
            List.mem_filter, decide_eq_true_eq] at member
          obtain ⟨gen, ⟨listed, final⟩, rfl⟩ := member
          exact ⟨gen, listGenerations_retired read.symm listed, final⟩
        · cases threatened.1
  | oracle q =>
    have same : db' = db := by
      rcases effect with ⟨raised, -, rfl⟩ | answered
      · rfl
      · exact (Prod.mk.inj answered).2
    subst same
    cases q with
    | getGeneration g =>
      refine ⟨tidy.backed, fun g' member => ?_, fun _ _ _ _ threatened => ?_,
        fun _ listed => by cases listed⟩
      · refine tidy.retired g' (List.mem_append_left _ ?_)
        simp only [Sweep.after, Option.toList_some, List.mem_append, List.mem_filter,
          List.mem_singleton] at member
        rcases member with ⟨member, -⟩ | rfl
        · exact member
        · exact ready
      · cases threatened.1
    | _ => exact tidy
  | unresolved g =>
    rcases effect with ⟨raised, rfl, rfl⟩ | answered
    · exact tidy
    · simp only [Db.gcAnswer, Prod.mk.injEq] at answered
      obtain ⟨read, rfl⟩ := answered
      cases found : db'.unresolved g with
      | true =>
        rw [found] at read
        subst read
        exact tidy
      | false =>
        rw [found] at read
        subst read
        -- The look at the board: none of the generation's receipts is on it.
        refine ⟨tidy.backed, tidy.retired, fun row member start held threatened => ?_, tidy.owned⟩
        obtain ⟨-, ⟨g', current, owned⟩, -⟩ := threatened
        obtain rfl : g = g' := Option.some.inj (ready.symm.trans current)
        exact off_of_resolved found member held owned
  | startsOf g =>
    rcases effect with ⟨raised, rfl, rfl⟩ | answered
    · exact tidy
    · simp only [Db.gcAnswer, Prod.mk.injEq] at answered
      obtain ⟨read, rfl⟩ := answered
      cases r with
      | error raised => exact tidy
      | ok rows =>
        have listed : ∀ row ∈ rows, row ∈ db'.startsOf g := by
          rw [Except.ok.inj read]
          exact fun _ member => member
        refine ⟨tidy.backed, tidy.retired, fun row member start held threatened => ?_,
          fun sids targets sid member start held => ?_⟩
        · refine tidy.off row member start held ⟨threatened.1, threatened.2.1, fun sids targets => ?_⟩
          rw [ready.2] at targets
          cases targets
        · cases targets
          obtain ⟨⟨sid, createdAt⟩, here, rfl⟩ := List.mem_map.mp member
          exact ⟨g, ready.1, mem_startsOf (listed _ here) start held⟩
  | deleteSession sid past =>
    rcases effect with ⟨raised, rfl, rfl⟩ | answered
    · exact tidy
    · simp only [Db.gcAnswer, Prod.mk.injEq] at answered
      obtain ⟨rfl, rfl⟩ := answered
      have quietly : s.Undisturbed db (.collectSession sid past) :=
        ⟨fun _ _ => rfl, fun _ _ _ _ publishes => (by cases publishes), fun _ _ _ _ => rfl⟩
      exact tidy.others quietly

/-! ### The program deletes what it should -/

variable {β : Type} {post : Except Raised β → Db × Sweep → Prop} {w : Db × Sweep}

/-- One effect of the collector, among others. -/
theorem safe_ask {e : GcEffect} {f : e.Value → Collector β} (tidy : Tidy w) (ready : e.ready w.2)
    (fine : ∀ w', Tidy w' → w'.2 = w.2 → DeletesSettled e w')
    (fails : ∀ x w', post (.error x) w')
    (next : ∀ a w', Tidy w' → w'.2 = w.2.after e (.ok a) →
      amongOthers.Safe DeletesSettled post (f a) w') :
    amongOthers.Safe DeletesSettled post (gcAsk e >>= f) w := by
  intro w' moves
  obtain ⟨tidy', same⟩ := tidy.rely moves
  refine ⟨fine w' tidy' same, fun r w'' acts => ?_⟩
  have tidy'' := tidy'.own (same ▸ ready) acts
  cases r with
  | error x => exact fun w _ => fails x w
  | ok a => exact next a w'' tidy'' (same ▸ acts.1)

theorem Tidy.reclaimable {g sid : String} {sids : List String} (tidy : Tidy w)
    (cleared : w.2.cleared = true) (current : w.2.current = some g)
    (targets : w.2.targets = some sids) (listed : sid ∈ sids) : w.1.Reclaimable sid := by
  have owns : ∀ start, w.1.findStart sid = some start → start.generationId = some g := by
    intro start found
    obtain ⟨g', here, owned⟩ := tidy.owned sids targets sid listed start found
    obtain rfl : g = g' := Option.some.inj (current.symm.trans here)
    exact owned
  refine ⟨fun start found => ?_, fun held => ?_, fun row found => ?_⟩
  · obtain ⟨gen, there, final⟩ := tidy.retired g (by simp [current])
    exact ⟨g, gen, owns start found, there, final⟩
  · have session : (w.1.sessions.find? sid).isSome := by
      refine held.elim id fun receipt => ?_
      obtain ⟨row, found⟩ := Option.isSome_iff_exists.mp receipt
      have named : row.sessionId = sid := Table.key_of_find? found
      exact named ▸ (tidy.backed.receipts row (Table.mem_of_find? found)).1
    obtain ⟨start, found, -⟩ := tidy.backed.sessions sid session
    rw [found]
    rfl
  · have member := Table.mem_of_find? found
    have named : row.sessionId = sid := Table.key_of_find? found
    obtain ⟨start, held, -⟩ := tidy.backed.assigned member
    refine tidy.off row member start held ⟨cleared, ⟨g, current, owns start (named ▸ held)⟩, ?_⟩
    intro other same
    obtain rfl : sids = other := Option.some.inj (targets.symm.trans same)
    exact named ▸ listed

theorem safe_gcSessions {now : ℚ} {horizon : Option ℚ} {g : String} {sids : List String}
    {s : Sweep} (cleared : s.cleared = true) (current : s.current = some g)
    (targets : s.targets = some sids) (rows : List (String × ℚ))
    (listed : ∀ row ∈ rows, row.1 ∈ sids) (stats : GcStats) (tidy : Tidy w) (at_ : w.2 = s) :
    amongOthers.Safe DeletesSettled (fun r w => r.isOk → Tidy w ∧ w.2 = s)
      (gcSessions now horizon stats rows) w := by
  induction rows generalizing stats w with
  | nil =>
    intro w' moves _
    obtain ⟨tidy', same⟩ := tidy.rely moves
    exact ⟨tidy', same.trans at_⟩
  | cons row rest ih =>
    obtain ⟨sid, createdAt⟩ := row
    subst at_
    refine safe_ask tidy trivial (fun w' tidy' same => ?_) (fun _ _ => nofun)
      fun a w' tidy' same => ?_
    · exact tidy'.reclaimable (by rw [same, cleared]) (by rw [same, current])
        (by rw [same, targets]) (listed (sid, createdAt) (by simp))
    · exact ih (fun row later => listed row (List.mem_cons_of_mem _ later)) _ tidy' same

theorem safe_gcCleared {now : ℚ} {horizon : Option ℚ} {g : String} {s : Sweep}
    (current : s.current = some g) (uncleared : s.targets = none) (stats : GcStats)
    (blockers : List Blocker) (tidy : Tidy w) (at_ : w.2 = s) :
    amongOthers.Safe DeletesSettled (fun r w => r.isOk → Tidy w ∧ w.2.ahead = s.ahead)
      (gcCleared now horizon stats g blockers) w := by
  subst at_
  have stays : ∀ w', amongOthers.rely w w' → Tidy w' ∧ w'.2.ahead = w.2.ahead := by
    intro w' moves
    obtain ⟨tidy', same⟩ := tidy.rely moves
    exact ⟨tidy', by rw [same]⟩
  unfold gcCleared
  split
  · exact fun w' moves _ => stays w' moves
  · refine safe_ask tidy current (fun _ _ _ => trivial) (fun _ _ => nofun)
      fun unresolved w' tidy' same => ?_
    cases unresolved with
    | true =>
      intro w'' moves _
      obtain ⟨tidy'', same'⟩ := tidy'.rely moves
      exact ⟨tidy'', by rw [same', same]; rfl⟩
    | false =>
      have here : w'.2 = { w.2 with cleared := true } := same
      refine safe_ask tidy' (by rw [here]; exact ⟨current, uncleared⟩) (fun _ _ _ => trivial)
        (fun _ _ => nofun) fun rows w'' tidy'' same' => ?_
      have there : w''.2 = { w.2 with cleared := true, targets := some (rows.map Prod.fst) } := by
        rw [same', here]
        rfl
      refine (safe_gcSessions
        (s := { w.2 with cleared := true, targets := some (rows.map Prod.fst) }) rfl current rfl
        rows (fun row listed => ?_) stats tidy'' there).mono fun r w3 good fine => ?_
      · exact List.mem_map_of_mem listed
      · obtain ⟨tidy3, at3⟩ := good fine
        exact ⟨tidy3, by rw [at3]⟩

theorem oracle_rests {q : Query} (other : ∀ g, q ≠ .getGeneration g) (s : Sweep)
    (r : (GcEffect.oracle q).Answer) :
    (GcEffect.oracle q).ready s ∧ s.after (.oracle q) r = s := by
  cases q with
  | getGeneration g => exact absurd rfl (other g)
  | _ => exact ⟨trivial, rfl⟩

/-- The oracle's reads after the first leave the collector where it is. -/
theorem only_oracle (generationId : String) (gen : GenerationRow) :
    Prog.Only (fun e => ∃ q, e = GcEffect.oracle q ∧ ∀ g, q ≠ .getGeneration g)
      (do
        let current := if gen.currentEpoch ≠ none then [Blocker.hasCurrentEpoch] else []
        let epochs ← gcAsk (.oracle (.listEpochs generationId))
        if epochs = [] then pure (current ++ [.noEpochs])
        else do
          let listed ← listedBlockers (fun q => gcAsk (.oracle q)) epochs
          pure (current ++ listed) : Collector (List Blocker)) := by
  have each : ∀ epochs : List EpochRecord,
      Prog.Only (fun e => ∃ q, e = GcEffect.oracle q ∧ ∀ g, q ≠ .getGeneration g)
        (listedBlockers (fun q => gcAsk (.oracle q)) epochs) := by
    intro epochs
    induction epochs with
    | nil => exact .pure
    | cons ep rest ih =>
      refine .bind ?_ fun here => .bind ih fun later => .pure
      unfold epochBlockers
      split
      · exact .pure
      · exact .bind (.perform ⟨_, rfl, nofun⟩ fun _ => .done) fun _ => .pure
  refine .bind (.perform ⟨_, rfl, nofun⟩ fun _ => .done) fun epochs => ?_
  split
  · exact .pure
  · exact .bind (each epochs) fun _ => .pure

theorem safe_oracle {generationId : String} {f : List Blocker → Collector β}
    (tidy : Tidy w) (ready : generationId ∈ w.2.ahead) (fails : ∀ x w', post (.error x) w')
    (next : ∀ blockers w', Tidy w' →
      w'.2 = { ahead := w.2.ahead.filter (· ≠ generationId), current := some generationId } →
      amongOthers.Safe DeletesSettled post (f blockers) w') :
    amongOthers.Safe DeletesSettled post
      (generationRetirementOracleBlockers (fun q => gcAsk (.oracle q)) generationId >>= f) w := by
  unfold generationRetirementOracleBlockers
  rw [Prog.bind_assoc]
  refine safe_ask tidy ready (fun _ _ _ => trivial) fails fun gen w' tidy' same => ?_
  refine Setting.Safe.first (fun w'' => Tidy w'' ∧ w''.2 = w'.2) (only_oracle generationId gen)
    ?_ ?_ ?_ ⟨tidy', rfl⟩ (fun x w'' _ => fails x w'') fun blockers w'' held => ?_
  · rintro w1 w2 moves ⟨tidy1, same1⟩
    obtain ⟨tidy2, same2⟩ := tidy1.rely moves
    exact ⟨tidy2, same2.trans same1⟩
  · rintro e w1 r w2 ⟨q, rfl, other⟩ ⟨tidy1, same1⟩ acts
    obtain ⟨ready1, stays⟩ := oracle_rests other w1.2 r
    exact ⟨tidy1.own ready1 acts, (acts.1.trans stays).trans same1⟩
  · rintro e w1 ⟨q, rfl, -⟩ -
    trivial
  · exact next blockers w'' held.1 (held.2.trans same)

theorem safe_gcGenerations {now : ℚ} {horizon : Option ℚ} (gens : List GenerationRow)
    (distinct : (gens.map GenerationRow.generationId).Nodup) (stats : GcStats) (tidy : Tidy w)
    (listed : ∀ gen ∈ gens, gen.lifecycleState = .retired → gen.generationId ∈ w.2.ahead) :
    amongOthers.Safe DeletesSettled (fun _ _ => True) (gcGenerations now horizon stats gens) w := by
  induction gens generalizing stats w with
  | nil => exact fun _ _ => trivial
  | cons gen rest ih =>
    rw [List.map_cons, List.nodup_cons] at distinct
    unfold gcGenerations
    split
    · exact ih distinct.2 stats tidy fun other later =>
        listed other (List.mem_cons_of_mem _ later)
    · rename_i final
      refine safe_oracle tidy (listed gen (by simp) (not_not.mp final)) (fun _ _ => trivial)
        fun blockers w' tidy' same => ?_
      refine Setting.Safe.bind ((safe_gcCleared (by rw [same]) (by rw [same]) _ blockers tidy'
        rfl).mono fun r w'' good => ?_)
      cases r with
      | error x => exact trivial
      | ok stats' =>
        obtain ⟨tidy'', ahead⟩ := good rfl
        refine ih distinct.2 stats' tidy'' fun other later retired => ?_
        rw [ahead, same]
        refine List.mem_filter.mpr ⟨listed other (List.mem_cons_of_mem _ later) retired, ?_⟩
        -- Ids are distinct, so the generations to come are still ahead.
        have apart : other.generationId ≠ gen.generationId := fun eq =>
          distinct.1 (eq ▸ List.mem_map_of_mem later)
        simpa using apart

theorem safe_gcRetiredGenerations (replayHorizonSeconds clock : Reading) (backed : db.Backed) :
    amongOthers.Safe DeletesSettled (fun _ _ => True)
      (gcRetiredGenerations replayHorizonSeconds clock) (db, {}) := by
  have tidy : Tidy (db, {}) :=
    ⟨backed, fun _ member => (by cases member), fun _ _ _ _ threatened => (by cases threatened.1),
      fun _ listed => (by cases listed)⟩
  unfold gcRetiredGenerations
  cases replayHorizon replayHorizonSeconds with
  | error x => exact fun _ _ => trivial
  | ok horizon =>
    cases timestamp clock "clock" with
    | error x => exact fun _ _ => trivial
    | ok now =>
      intro w' moves
      obtain ⟨tidy', -⟩ := tidy.rely moves
      refine ⟨trivial, fun r w'' acts => ?_⟩
      have tidy'' := tidy'.own (e := .listGenerations) trivial acts
      cases r with
      | error x => exact fun _ _ => trivial
      | ok gens =>
        obtain ⟨sweep, ⟨_, failed, -⟩ | answered⟩ := acts
        · cases failed
        · simp only [Db.gcAnswer, Prod.mk.injEq] at answered
          refine safe_gcGenerations gens ?_ {} tidy'' fun gen listed final => ?_
          · exact listGenerations_distinct answered.1.symm
          · rw [sweep]
            exact List.mem_map_of_mem (List.mem_filter.mpr ⟨listed, by simpa using final⟩)

/-! ### The law -/

/-- Whatever the other writers do that leaves the collector undisturbed, wherever it is about to
delete a session everything stored under that session belongs to a retired generation and no
receipt of it is on a board; and the deletion touches nothing else. -/
theorem collects_settled (calls : List Call) (replayHorizonSeconds clock : Reading) :
    (∀ (rest : Collector GcStats) w sid past,
      Relation.ReflTransGen amongOthers.Step
        (gcRetiredGenerations replayHorizonSeconds clock, machine.after {} calls, {}) (rest, w) →
      rest.head? = some (.deleteSession sid past) → w.1.Reclaimable sid) ∧
    (∀ (db : Db) sid past,
      (db.collectSession sid past).generations = db.generations ∧
      (db.collectSession sid past).epochs = db.epochs ∧
      ∀ other, other ≠ sid →
        (db.collectSession sid past).terminal.find? other = db.terminal.find? other ∧
        (db.collectSession sid past).sessions.find? other = db.sessions.find? other ∧
        (db.collectSession sid past).findStart other = db.findStart other) := by
  refine ⟨fun rest w sid past steps about => ?_, fun db sid past => ⟨rfl, rfl, ?_⟩⟩
  · exact (safe_gcRetiredGenerations replayHorizonSeconds clock (backed_after calls)).reach steps
      about
  · intro other apart
    refine ⟨by simp [Db.collectSession, Table.find?_erase, apart],
      by simp [Db.collectSession, Table.find?_erase, apart], ?_⟩
    cases past <;> simp [Db.collectSession, Db.findStart, Table.find?_erase, apart]

/-! ### Alone, and with a late result -/

/-- The collector in a database that nobody else touches. -/
def gcHandle (e : GcEffect) (w : Db × Sweep) : e.Answer × (Db × Sweep) :=
  ((w.1.gcAnswer e).1, (w.1.gcAnswer e).2, w.2.after e (w.1.gcAnswer e).1)

theorem gcHandle_steps (guard : Sweep → Db → Call → Prop) (n : ℕ) (p : Collector GcStats)
    (w : Db × Sweep) :
    Relation.ReflTransGen (collecting guard).Step (p, w) (p.advance gcHandle n w) := by
  have complies : ∀ (n : ℕ) (p : Collector GcStats) w,
      p.complies gcHandle (fun _ _ => true) n w = true := by
    intro n
    induction n with
    | zero => exact fun _ _ => rfl
    | succ n ih =>
      intro p w
      cases p with
      | done r => rfl
      | perform e next => simpa [Prog.complies] using ih _ _
  have admitted : ∀ (e : GcEffect) (w : Db × Sweep), true = true →
      (collecting guard).act e w (gcHandle e w).1 (gcHandle e w).2 := fun _ _ _ => ⟨rfl, .inr rfl⟩
  exact Setting.steps_advance admitted (complies n p w)

/-- A session of a generation that is retired with one certified epoch. -/
def endedQuietly : List Call :=
  [.createGeneration sampleGeneration none .draining none (.finite 0),
    .insertEpoch firstEpoch sampleGeneration none (.finite 0)] ++
  endedOnFirst ++
  [.ackTerminal sampleId.value "owner" (.finite 4),
    .setGenerationConfirmedHighWater firstEpoch 1,
    .setEpochRetirement firstEpoch .certified (.text "c") (some 1),
    .setGenerationLifecycleState sampleGeneration .retired]

/-- The same generation retired while its session has no receipt. -/
def retiredUnended : List Call :=
  [.createGeneration sampleGeneration none .draining none (.finite 0),
    .insertEpoch firstEpoch sampleGeneration none (.finite 0)] ++
  endedOnFirst.take 3 ++
  [.setEpochRetirement firstEpoch .certified (.text "c") (some 0),
    .setGenerationLifecycleState sampleGeneration .retired]

abbrev sampleCollection : Collector GcStats := gcRetiredGenerations (.finite 60) (.finite 9)

theorem collects_settled_acknowledged :
    (sampleCollection.advance gcHandle 6 (machine.after {} endedQuietly, {})).2.1.Reclaimable
      sampleId.value :=
  (collects_settled endedQuietly (.finite 60) (.finite 9)).1 _ _ sampleId.value false
    (gcHandle_steps _ 6 _ _) (by decide +kernel)

/-- The collector has looked at the board and listed the session when its result is published: the
result is on the board, and the next step deletes it. -/
theorem collects_unseen :
    ∃ (rest : Collector GcStats) (w : Db × Sweep),
      Relation.ReflTransGen (collecting fun _ _ _ => True).Step
        (sampleCollection, machine.after {} retiredUnended, {}) (rest, w) ∧
      rest.head? = some (.deleteSession sampleId.value false) ∧
      ∃ row ∈ w.1.terminal.rows, row.sessionId = sampleId.value ∧ row.standing = .onBoard := by
  refine ⟨(sampleCollection.advance gcHandle 6 (machine.after {} retiredUnended, {})).1,
    ((machine.step (sampleCollection.advance gcHandle 6 (machine.after {} retiredUnended, {})).2.1
      (.putTerminal sampleId.value
        { terminalKind := "done", summary := "", endedAt := .finite 8 } (.finite 8))).1,
      (sampleCollection.advance gcHandle 6 (machine.after {} retiredUnended, {})).2.2), ?_, ?_, ?_⟩
  · exact (gcHandle_steps _ 6 _ _).tail (.other (.single ⟨_, trivial, rfl⟩))
  · decide +kernel
  · decide +kernel

end Nelix.Store
