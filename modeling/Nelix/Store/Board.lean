import Nelix.Store.ReceiptRuns
import Mathlib.Data.List.Dedup

/-!
# The board

The board of an owner lists the receipts that were neither acknowledged nor expired, and a counter
moves with it. `BoardEffect` says once what a call does to the standings and to the counters.

## Main results

`Call.row_moves`: a receipt only ever leaves the board.

`board_step`: a call moves the counter of an owner, by one, exactly when it changes the board.
-/
namespace Nelix.Store

open Contracts Core

namespace Db

/-- The owner's board: results awaiting their attention, in the order they ended. -/
def listTerminal (db : Db) (ownerId : String) : List TerminalRecord :=
  (db.readTerminals fun row start =>
    start.ownerId = ownerId && row.schemaVersion = currentSchema &&
      row.standing = .onBoard).insertionSort
    fun a b => a.row.endedAt < b.row.endedAt ∨
      (a.row.endedAt = b.row.endedAt ∧ a.row.sessionId ≤ b.row.sessionId)

def getOwnerBoardSeq (db : Db) (ownerId : String) : Outcome ℕ := do
  requireText ownerId "owner_id"
  return db.boardSeqOf ownerId

/-- The counter and the board of an owner, in one read transaction. -/
def readBoardSnapshot (db : Db) (ownerId : String) : Outcome (ℕ × List TerminalRecord) := do
  let seq ← db.getOwnerBoardSeq ownerId
  return (seq, db.listTerminal ownerId)

/-- The results listed on an owner's board. -/
def board (db : Db) (ownerId : String) : Set TerminalRow :=
  {row | ∃ record ∈ db.listTerminal ownerId, record.row = row}

end Db

variable {db db' : Db} {call : Call} {owner : String}

/-- The results on a board are told apart by their sessions. -/
theorem listTerminal_distinct (db : Db) (owner : String) :
    ((db.listTerminal owner).map (·.row.sessionId)).Nodup := by
  have sorted := List.perm_insertionSort (fun a b : TerminalRecord => a.row.endedAt < b.row.endedAt ∨
    (a.row.endedAt = b.row.endedAt ∧ a.row.sessionId ≤ b.row.sessionId))
    (db.readTerminals fun row start => start.ownerId = owner && row.schemaVersion = currentSchema &&
      row.standing = .onBoard)
  refine (sorted.map (·.row.sessionId)).nodup_iff.mpr ?_
  refine (sublist_keys TerminalRow.sessionId (fun row record read => ?_) _).nodup
    db.terminal.distinct
  obtain ⟨start, -, read⟩ := Option.bind_eq_some_iff.mp read
  split at read
  · cases read
    rfl
  · cases read

/-! ### Receipts are backed by their sessions -/

theorem joined_eq_some {sid : String} {start : StartRow} :
    db.joined sid = some start ↔
      (db.sessions.find? sid).isSome ∧ db.findStart sid = some start := by
  unfold Db.joined
  cases db.sessions.find? sid <;> simp

/-- A receipt has its session, and is written in the current schema. -/
def ReceiptsBacked (db : Db) : Prop :=
  ∀ row ∈ db.terminal.rows, (db.sessions.find? row.sessionId).isSome ∧
    row.schemaVersion = currentSchema

/-- What every database of the store satisfies. -/
structure Db.Backed (db : Db) : Prop where
  sessions : SessionsBacked db
  receipts : ReceiptsBacked db

theorem Db.Backed.start (backed : db.Backed) {row : TerminalRow} (member : row ∈ db.terminal.rows) :
    ∃ start, db.findStart row.sessionId = some start ∧ row.readable start = true := by
  obtain ⟨held, schema⟩ := backed.receipts row member
  obtain ⟨start, found, identified⟩ := backed.sessions row.sessionId held
  exact ⟨start, found, by simp [TerminalRow.readable, schema, currentSchema, identified]⟩

theorem mem_board (backed : db.Backed) {row : TerminalRow} :
    row ∈ db.board owner ↔ row ∈ db.terminal.rows ∧ row.standing = .onBoard ∧
      (db.findStart row.sessionId).map StartRow.ownerId = some owner := by
  simp only [Db.board, Db.listTerminal, Db.readTerminals, List.mem_insertionSort,
    List.mem_filterMap, Option.bind_eq_some_iff, Set.mem_ofPred_eq]
  constructor
  · rintro ⟨record, ⟨row', member, start, found, listed⟩, rfl⟩
    split at listed
    · rename_i wanted
      cases listed
      simp only [Bool.and_eq_true, decide_eq_true_eq] at wanted
      exact ⟨member, wanted.1.2, by rw [found, Option.map_some, wanted.1.1.1]⟩
    · cases listed
  · rintro ⟨member, onBoard, owned⟩
    obtain ⟨start, found, readable⟩ := backed.start member
    obtain ⟨-, schema⟩ := backed.receipts row member
    rw [found, Option.map_some, Option.some.injEq] at owned
    exact ⟨⟨row, start⟩, ⟨row, member, start, found, by simp [owned, schema, onBoard, readable]⟩, rfl⟩

/-! ### The counters -/

theorem boardSeqOf_bump (db : Db) (o owner : String) :
    (db.bumpBoardSeq o).boardSeqOf owner =
      if o = owner then db.boardSeqOf owner + 1 else db.boardSeqOf owner := by
  unfold Db.bumpBoardSeq Db.boardSeqOf
  dsimp only
  cases inserted : db.boardSeq.insert
      ({ ownerId := o, seq := db.boardSeqOf o + 1 } : BoardSeqRow) with
  | some table =>
    have written := Table.find?_insert inserted owner
    simp only [Db.boardSeqOf, Keyed.key] at inserted written ⊢
    simp only [inserted, Option.getD_some, written]
    split
    · rename_i same
      subst same
      rfl
    · rfl
  | none =>
    -- The owner has a counter already.
    obtain ⟨old, found⟩ := Table.insert_eq_none.mp inserted
    simp only [Db.boardSeqOf, Keyed.key] at inserted found ⊢
    simp only [inserted, Option.getD_none, Table.find?_update, Keyed.key]
    split
    · rename_i same
      subst same
      simp [found]
    · rfl

theorem boardSeqOf_bumps (db : Db) {owners : List String} (distinct : owners.Nodup)
    (owner : String) :
    (owners.foldl Db.bumpBoardSeq db).boardSeqOf owner =
      if owner ∈ owners then db.boardSeqOf owner + 1 else db.boardSeqOf owner := by
  induction owners generalizing db with
  | nil => simp
  | cons o rest ih =>
    rw [List.nodup_cons] at distinct
    rw [List.foldl_cons, ih _ distinct.2, boardSeqOf_bump]
    by_cases same : o = owner
    · subst same
      simp [distinct.1]
    · have other : owner ≠ o := fun eq => same eq.symm
      simp [same, other]

/-! ### What a call does to the board -/

/-- Receipts stay as they are, or leave the board. -/
def Retires (before after : Table TerminalRow) : Prop :=
  ∀ sid, after.find? sid = before.find? sid ∨
    ∃ row standing, before.find? sid = some row ∧ row.standing = .onBoard ∧ standing ≠ .onBoard ∧
      after.find? sid = some { row with standing := standing }

theorem Retires.trans {t t' t'' : Table TerminalRow} (first : Retires t t')
    (second : Retires t' t'') : Retires t t'' := by
  intro sid
  rcases second sid with same | ⟨row, standing, found, onBoard, off, later⟩
  · rw [same]
    exact first sid
  · rcases first sid with same | ⟨row', standing', -, -, off', found'⟩
    · exact .inr ⟨row, standing, same ▸ found, onBoard, off, later⟩
    · -- What has left the board does not leave it again.
      rw [found'] at found
      cases found
      exact absurd onBoard off'

/-- The owners of the receipts that two tables hold differently. -/
def Concerns (db db' : Db) (owner : String) : Prop :=
  ∃ row ∈ db.terminal.rows, db'.terminal.find? row.sessionId ≠ some row ∧
    (db.findStart row.sessionId).map StartRow.ownerId = some owner

/-- What a call does to the standings and to the counters of the owners. -/
inductive BoardEffect (call : Call) (db db' : Db) : Prop
  | kept (terminal : db'.terminal = db.terminal) (seqs : ∀ o, db'.boardSeqOf o = db.boardSeqOf o)
  | published (sessionId : String) (result : TerminalResult) (clock : Reading)
      (here : call = .putTerminal sessionId result clock) (start : StartRow) (row : TerminalRow)
      (joined : db.joined sessionId = some start) (named : row.sessionId = sessionId)
      (onBoard : row.standing = .onBoard) (schema : row.schemaVersion = currentSchema)
      (publishes : Publishes db db' start row)
      (seqs : ∀ o, db'.boardSeqOf o =
        if start.ownerId = o then db.boardSeqOf o + 1 else db.boardSeqOf o)
  | retired (starts : db'.starts = db.starts) (sessions : db'.sessions = db.sessions)
      (retires : Retires db.terminal db'.terminal)
      (moves : ∀ o, Concerns db db' o → db'.boardSeqOf o = db.boardSeqOf o + 1)
      (rests : ∀ o, ¬ Concerns db db' o → db'.boardSeqOf o = db.boardSeqOf o)
  | collected (sessionId : String) (pastHorizon : Bool)
      (here : call = .collectSession sessionId pastHorizon)

theorem boardSeqOf_congr (same : db'.boardSeq = db.boardSeq) (o : String) :
    db'.boardSeqOf o = db.boardSeqOf o := by
  rw [Db.boardSeqOf, Db.boardSeqOf, same]

theorem putTerminal_board {sessionId : String} {result : TerminalResult} {clock : Reading}
    (done : db.putTerminal sessionId result clock = .ok db') :
    BoardEffect (.putTerminal sessionId result clock) db db' := by
  rcases putTerminal_cases done with ⟨-, -, -, -, -, rfl⟩ |
    ⟨start, endedAt, publishedAt, seq, joined, fresh, -, -, publishes⟩
  · exact .kept rfl fun _ => rfl
  · refine .published sessionId result clock rfl start _ joined rfl rfl rfl publishes fun o => ?_
    -- The counter moves in the same transaction.
    simp only [Db.putTerminal, joined, fresh, bind_ok, demand_ok, timestamp_ok, pure, Except.pure,
      Except.ok.injEq] at done
    obtain ⟨start', same, _, -, _, -, _, -, terminal, -, rfl⟩ := done
    cases same
    rw [boardSeqOf_bump]
    rfl

theorem ackTerminal_board {sessionId ownerId : String} {clock : Reading}
    (done : db.ackTerminal sessionId ownerId clock = .ok db') : BoardEffect call db db' := by
  simp only [Db.ackTerminal, bind_ok] at done
  obtain ⟨record, found, done⟩ := done
  split at done
  · cases done
    exact .kept rfl fun _ => rfl
  · simp at done
  · rename_i onBoard
    simp only [bind_ok, pure, Except.pure, Except.ok.injEq] at done
    obtain ⟨now, -, rfl⟩ := done
    simp only [Db.getTerminal, bind_ok, demand_ok, require_ok, pure, Except.pure,
      Except.ok.injEq, exists_const] at found
    obtain ⟨row, held, start, owned, same, -, -, rfl⟩ := found
    have named : row.sessionId = sessionId := Table.key_of_find? held
    subst named
    have written : ∀ sid, (db.terminal.update { row with standing := .acknowledged now }).find? sid =
        if row.sessionId = sid then some { row with standing := .acknowledged now }
        else db.terminal.find? sid := by
      intro sid
      rw [Table.find?_update]
      simp only [Keyed.key]
      split
      · rename_i eq
        rw [← eq, held]
        rfl
      · rfl
    have changed : ∀ o, Concerns db ({ db with
        terminal := db.terminal.update { row with standing := .acknowledged now } }.bumpBoardSeq
          ownerId) o ↔ ownerId = o := by
      intro o
      constructor
      · rintro ⟨other, member, differs, owns⟩
        have kept : other.sessionId = row.sessionId := by
          by_contra apart
          refine differs ((written other.sessionId).trans ?_)
          rw [if_neg fun eq => apart eq.symm]
          exact Table.find?_of_mem member
        rw [kept, owned, Option.map_some, Option.some.injEq] at owns
        exact same.symm.trans owns
      · rintro rfl
        refine ⟨row, Table.mem_of_find? held, fun eq => ?_, by rw [owned, Option.map_some, same]⟩
        have acknowledged := ((written row.sessionId).trans (if_pos rfl)).symm.trans eq
        rw [← Option.some.inj acknowledged] at onBoard
        cases onBoard
    refine .retired rfl rfl (fun sid => ?_) (fun o concerns => ?_) fun o apart => ?_
    · by_cases eq : row.sessionId = sid
      · subst eq
        exact .inr ⟨row, .acknowledged now, held, onBoard, by rintro ⟨⟩, (written _).trans (if_pos rfl)⟩
      · exact .inl ((written sid).trans (if_neg eq))
    · rw [boardSeqOf_bump, if_pos ((changed o).mp concerns)]
      rfl
    · rw [boardSeqOf_bump, if_neg (mt (changed o).mpr apart)]
      rfl

theorem expireWhere_retires (db : Db) (picked : TerminalRow → Bool) (now : ℚ)
    (reason : ExpireReason) : Retires db.terminal (db.expireWhere picked now reason).terminal := by
  intro sid
  simp only [Db.expireWhere, Table.find?_amend]
  cases found : db.terminal.find? sid with
  | none => exact .inl rfl
  | some row =>
    rw [Option.map_some]
    by_cases here : row.standing = .onBoard ∧ picked row = true
    · rw [if_pos here]
      exact .inr ⟨row, .expired now reason, rfl, here.1, by rintro ⟨⟩, rfl⟩
    · rw [if_neg here]
      exact .inl rfl

/-- A receipt that such a statement returns is another one then, and no other is. -/
theorem mem_returning {picked : TerminalRow → Bool} (now : ℚ) (reason : ExpireReason)
    {row : TerminalRow} (member : row ∈ db.terminal.rows) :
    row.sessionId ∈ db.returning picked ↔
      (db.expireWhere picked now reason).terminal.find? row.sessionId ≠ some row := by
  have held : db.terminal.find? row.sessionId = some row := Table.find?_of_mem member
  have after : (db.expireWhere picked now reason).terminal.find? row.sessionId =
      some (if row.standing = .onBoard ∧ picked row = true then
        { row with standing := .expired now reason } else row) := by
    simp only [Db.expireWhere, Table.find?_amend]
    rw [held, Option.map_some]
  have picks : row.sessionId ∈ db.returning picked ↔
      row.standing = .onBoard ∧ picked row = true := by
    simp only [Db.returning, List.mem_map, List.mem_filter, Bool.and_eq_true, decide_eq_true_eq]
    constructor
    · rintro ⟨other, ⟨among, holds⟩, same⟩
      rwa [← Table.eq_of_key among member same]
    · exact fun holds => ⟨row, ⟨member, holds⟩, rfl⟩
  rw [picks, after]
  constructor
  · intro holds same
    rw [if_pos holds, Option.some.injEq] at same
    rw [← same] at holds
    cases holds.1
  · intro differs
    by_contra spared
    exact differs (by rw [if_neg spared])

/-- What the two passes of a prune return are the receipts that are others after them. -/
theorem mem_returned {first second : TerminalRow → Bool} {now : ℚ} {row : TerminalRow}
    (member : row ∈ db.terminal.rows) :
    row.sessionId ∈ db.returning first ++ (db.expireWhere first now .age).returning second ↔
      ((db.expireWhere first now .age).expireWhere second now .count).terminal.find?
        row.sessionId ≠ some row := by
  rw [List.mem_append, mem_returning now .age member]
  by_cases kept : (db.expireWhere first now .age).terminal.find? row.sessionId = some row
  · have among := Table.mem_of_find? kept
    rw [mem_returning now .count among]
    simp [kept]
  · -- what the age pass expired the count pass leaves alone
    simp only [ne_eq, kept, not_false_eq_true, true_or, true_iff]
    intro back
    rcases expireWhere_retires (db.expireWhere first now .age) second now .count row.sessionId with
      same | ⟨other, standing, -, -, off, later⟩
    · exact kept (same.symm.trans back)
    · rcases expireWhere_retires db first now .age row.sessionId with
        same | ⟨old, standing', found, onBoard, -, -⟩
      · exact kept (same.trans (Table.find?_of_mem member))
      · have same : row = old :=
          Option.some.inj ((Table.find?_of_mem member).symm.trans found)
        rw [later, Option.some.injEq] at back
        rw [← same, ← back] at onBoard
        exact off onBoard

theorem mem_affectedOwners {before after : Db} {sessionIds : List String}
    (starts : after.starts = before.starts) (retires : Retires before.terminal after.terminal)
    (returned : ∀ row ∈ before.terminal.rows, row.sessionId ∈ sessionIds ↔
      after.terminal.find? row.sessionId ≠ some row) {o : String} :
    o ∈ after.affectedOwners sessionIds ↔ Concerns before after o := by
  have found : ∀ sid, after.findStart sid = before.findStart sid := fun sid => by
    rw [Db.findStart, Db.findStart, starts]
  simp only [Db.affectedOwners, List.mem_dedup, List.mem_filterMap, List.mem_filter,
    decide_eq_true_eq, Concerns, found]
  constructor
  · rintro ⟨row, ⟨member, listed⟩, owned⟩
    rcases retires row.sessionId with same | ⟨old, standing, held, onBoard, off, later⟩
    · have kept : row ∈ before.terminal.rows :=
        Table.mem_of_find? (same.symm.trans (Table.find?_of_mem member))
      exact ⟨row, kept, (returned row kept).mp listed, owned⟩
    · have named : old.sessionId = row.sessionId := Table.key_of_find? held
      have among := Table.mem_of_find? held
      exact ⟨old, among, (returned old among).mp (named ▸ listed), named ▸ owned⟩
  · rintro ⟨row, member, differs, owned⟩
    have listed := (returned row member).mpr differs
    rcases retires row.sessionId with same | ⟨old, standing, held, onBoard, off, later⟩
    · exact absurd (same.trans (Table.find?_of_mem member)) differs
    · have same : row = old := Option.some.inj ((Table.find?_of_mem member).symm.trans held)
      exact ⟨_, ⟨Table.mem_of_find? later, by simpa [← same] using listed⟩,
        by simpa [← same] using owned⟩

theorem foldl_bumpBoardSeq_starts (owners : List String) (db : Db) :
    (owners.foldl Db.bumpBoardSeq db).starts = db.starts ∧
      (owners.foldl Db.bumpBoardSeq db).sessions = db.sessions := Db.foldl_bumpBoardSeq db owners

section ExpireTwice

variable (db : Db) (old surplus : TerminalRow → Bool) (now : ℚ)

theorem expireTwice_terminal : (db.expireTwice old surplus now).terminal =
    ((db.expireWhere old now .age).expireWhere surplus now .count).terminal :=
  foldl_bumpBoardSeq_terminal _ _

theorem expireTwice_starts : (db.expireTwice old surplus now).starts = db.starts ∧
    (db.expireTwice old surplus now).sessions = db.sessions := foldl_bumpBoardSeq_starts _ _

theorem expireTwice_retires : Retires db.terminal (db.expireTwice old surplus now).terminal := by
  rw [expireTwice_terminal]
  exact (expireWhere_retires db _ now .age).trans (expireWhere_retires _ _ now .count)

/-- The counter of an owner moves by one when a receipt of theirs was expired. -/
theorem expireTwice_seqs (o : String) :
    (Concerns db (db.expireTwice old surplus now) o →
      (db.expireTwice old surplus now).boardSeqOf o = db.boardSeqOf o + 1) ∧
    (¬ Concerns db (db.expireTwice old surplus now) o →
      (db.expireTwice old surplus now).boardSeqOf o = db.boardSeqOf o) := by
  let aged := db.expireWhere old now .age
  let counted := aged.expireWhere surplus now .count
  let owners := counted.affectedOwners (db.returning old ++ aged.returning surplus)
  have seqs : (db.expireTwice old surplus now).boardSeqOf o =
      if o ∈ owners then db.boardSeqOf o + 1 else db.boardSeqOf o :=
    boardSeqOf_bumps counted (List.nodup_dedup _ : owners.Nodup) o
  have retires : Retires db.terminal counted.terminal :=
    (expireWhere_retires db _ now .age).trans (expireWhere_retires aged _ now .count)
  have starts : counted.starts = db.starts := rfl
  have returned : ∀ row ∈ db.terminal.rows,
      row.sessionId ∈ db.returning old ++ aged.returning surplus ↔
        counted.terminal.find? row.sessionId ≠ some row := fun row member => mem_returned member
  have concerns : Concerns db (db.expireTwice old surplus now) o ↔ o ∈ owners := by
    rw [mem_affectedOwners starts retires returned]
    unfold Concerns
    rw [expireTwice_terminal]
  exact ⟨fun here => seqs.trans (if_pos (concerns.mp here)),
    fun apart => seqs.trans (if_neg (mt concerns.mpr apart))⟩

end ExpireTwice

theorem pruneTerminal_board {maxAge : AgeLimit} {maxCount : ℤ} {clock : Reading} {n : ℕ}
    (done : db.pruneTerminal maxAge maxCount clock = .ok (n, db')) : BoardEffect call db db' := by
  obtain ⟨age, now, -, -, -, -, -, -, -, rfl⟩ := Db.pruneTerminal_ok.mp done
  let old := Db.outdated age now
  let surplus := (db.expireWhere old now .age).surplus maxCount
  obtain ⟨starts, sessions⟩ := expireTwice_starts db old surplus now
  have seqs := expireTwice_seqs db old surplus now
  exact .retired starts sessions (expireTwice_retires db old surplus now)
    (fun o => (seqs o).1) fun o => (seqs o).2

theorem clearPointer_counters (generationId generationEpoch : String) :
    (db.clearPointer generationId generationEpoch).boardSeq = db.boardSeq ∧
      (db.clearPointer generationId generationEpoch).progress = db.progress := by
  unfold Db.clearPointer
  split
  · exact ⟨rfl, rfl⟩
  · split <;> exact ⟨rfl, rfl⟩

/-- A call that publishes, acknowledges, expires and confirms nothing leaves the counters. -/
theorem other_counters (done : call.apply db = .ok db') :
    match call with
    | .putTerminal .. | .ackTerminal .. | .pruneTerminal .. => True
    | .setGenerationConfirmedHighWater .. => db'.boardSeq = db.boardSeq
    | _ => db'.boardSeq = db.boardSeq ∧ db'.progress = db.progress := by
  cases call
  case putTerminal => trivial
  case ackTerminal => trivial
  case pruneTerminal => trivial
  case setGenerationConfirmedHighWater =>
    simp only [Call.apply, Db.setGenerationConfirmedHighWater, bind_ok, pure, Except.pure,
      Except.ok.injEq] at done
    obtain ⟨_, -, _, -, rfl⟩ := done
    rfl
  case reserve request minted clock =>
    simp only [Call.apply] at done
    cases reply : db.reserve request minted clock with
    | error raised => simp [reply, Except.map] at done
    | ok r =>
      simp only [reply, Except.map, Except.ok.injEq] at done
      subst done
      simp only [Db.reserve, bind_ok] at reply
      obtain ⟨_, -, now, -, reply⟩ := reply
      split at reply
      · cases reply
        exact ⟨rfl, rfl⟩
      · simp only [bind_ok, pure, Except.pure, Except.ok.injEq] at reply
        obtain ⟨_, -, _, -, rfl⟩ := reply
        exact ⟨rfl, rfl⟩
  case fail =>
    simp only [Call.apply, Db.fail, bind_ok] at done
    obtain ⟨_, -, row, -, _, -, done⟩ := done
    split at done
    all_goals
      simp only [bind_ok, pure, Except.pure, Except.ok.injEq] at done
      obtain ⟨_, -, rfl⟩ := done
      exact ⟨rfl, rfl⟩
  case setEpochRetirement =>
    obtain ⟨-, _, _, _, -, -, -, -, rfl⟩ := Db.setEpochRetirement_ok.mp done
    exact ⟨rfl, rfl⟩
  case reconcileEpochDead g e =>
    simp only [Call.apply, Db.reconcileEpochDead, bind_ok, pure, Except.pure,
      Except.ok.injEq] at done
    obtain ⟨_, -, _, -, _, -, rfl⟩ := done
    exact clearPointer_counters g e
  -- The rest end in one update of a table that is not the counters'.
  all_goals
    simp only [Call.apply, Db.assignGeneration, Db.commit, Db.createSession, Db.transitionSession,
      Db.collectSession, Db.createGeneration, Db.insertEpoch, Db.casEpochServing,
      Db.setEpochProcessState, Db.setGenerationLifecycleState, Db.clearCurrentEpoch,
      Db.setCurrentEpoch, Db.setGenerationLifecycleStateAtomic, bind_ok, pure, Except.pure,
      Except.ok.injEq, Db.setEpochRow, Db.setGenerationRow] at done
    grind

theorem Call.boardEffect (done : call.apply db = .ok db') : BoardEffect call db db' := by
  have identity := Db.identity_ledger done
  have ledger := ledger_terminal done
  have counters := other_counters done
  cases call with
  | putTerminal => exact putTerminal_board done
  | ackTerminal => exact ackTerminal_board done
  | pruneTerminal age count clock =>
    simp only [Call.apply] at done
    cases reply : db.pruneTerminal age count clock with
    | error raised => simp [reply, Except.map] at done
    | ok r =>
      simp only [reply, Except.map, Except.ok.injEq] at done
      subst done
      exact pruneTerminal_board reply
  | collectSession sid past => exact .collected sid past rfl
  | reserve => exact .kept ledger (boardSeqOf_congr counters.1)
  | assignGeneration => exact .kept ledger (boardSeqOf_congr counters.1)
  | commit => exact .kept ledger (boardSeqOf_congr counters.1)
  | fail => exact .kept ledger (boardSeqOf_congr counters.1)
  | createSession => exact .kept ledger (boardSeqOf_congr counters.1)
  | transitionSession => exact .kept ledger (boardSeqOf_congr counters.1)
  | setGenerationConfirmedHighWater => exact .kept identity.2.2 (boardSeqOf_congr counters)
  | _ => exact .kept identity.2.2 (boardSeqOf_congr counters.1)

end Nelix.Store
