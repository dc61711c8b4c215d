import Nelix.Store.Board
import Nelix.Store.LedgerRuns

/-!
# Results on the board and off it

## Main results

`results_settle`: a result leaves the board once, by an acknowledgement or by an expiry, and stays
as it left; publishing it again and acknowledging it again change nothing.

`board_step`: a call moves the counter of an owner, by one, exactly when it changes the board.

Strategy: `Call.result_moves` says what one call leaves of a receipt, `ResultsStay` what a run
leaves of it. The replies are computed from the row that is found.
-/
namespace Nelix.Store

open Contracts Core

variable {db db' : Db} {call : Call} {owner : String}

/-! ### Every database of the store backs its receipts -/

theorem ReceiptsBacked.keeps (backed : ReceiptsBacked db) (keeps : call.collects = false)
    (done : call.apply db = .ok db') : ReceiptsBacked db' := by
  have sessions : ∀ sid, (db.sessions.find? sid).isSome → (db'.sessions.find? sid).isSome := by
    intro sid held
    cases Call.startsEffect done with
    | kept starts sessions => rw [sessions]; exact held
    | reserved request minted clock now reserves asked fresh starts sessions =>
      rw [sessions]; exact held
    | moved row row' found move starts sessions => rw [sessions]; exact held
    | created start spec creates found alive identified starts sessions =>
      rw [sessions, held, Bool.or_true]
    | collected sid past collects starts sessions => simp [collects, Call.collects] at keeps
  intro row member
  cases Call.boardEffect done with
  | kept terminal seqs =>
    obtain ⟨held, schema⟩ := backed row (terminal ▸ member)
    exact ⟨sessions _ held, schema⟩
  | published sid result clock here start new joined named onBoard schema publishes seqs =>
    rcases (Table.mem_insert publishes.terminal).mp member with old | rfl
    · obtain ⟨held, current⟩ := backed row old
      exact ⟨sessions _ held, current⟩
    · -- A receipt is written for a session that has its row.
      refine ⟨sessions _ ?_, schema⟩
      rw [named]
      exact (joined_eq_some.mp joined).1
  | retired starts same retires moves rests =>
    rcases retires row.sessionId with kept | ⟨old, standing, found, -, -, later⟩
    · have held := kept.symm.trans (Table.find?_of_mem member)
      obtain ⟨there, schema⟩ := backed row (Table.mem_of_find? held)
      exact ⟨sessions _ there, schema⟩
    · obtain rfl := Option.some.inj (later.symm.trans (Table.find?_of_mem member))
      obtain ⟨there, schema⟩ := backed old (Table.mem_of_find? found)
      exact ⟨sessions _ there, schema⟩
  | collected sid past here => simp [here, Call.collects] at keeps

theorem ReceiptsBacked.collect (backed : ReceiptsBacked db) (sid : String) (past : Bool) :
    ReceiptsBacked (db.collectSession sid past) := by
  intro row member
  have found := Table.find?_of_mem member
  have key : Keyed.key row = row.sessionId := rfl
  simp only [Db.collectSession, Table.find?_erase, key] at found ⊢
  split at found
  · cases found
  · -- The collector takes the receipt together with its session.
    rename_i other
    obtain ⟨held, schema⟩ := backed row (Table.mem_of_find? found)
    rw [if_neg other]
    exact ⟨held, schema⟩

theorem Db.Backed.step (backed : db.Backed) (call : Call) : (machine.step db call).1.Backed := by
  refine ⟨backed.sessions.step call, ?_⟩
  simp only [machine, settled]
  cases done : call.apply db with
  | error raised => exact backed.receipts
  | ok db' =>
    cases keeps : call.collects with
    | false => exact backed.receipts.keeps keeps done
    | true =>
      cases call with
      | collectSession sid past =>
        simp only [Call.apply, Except.ok.injEq] at done
        exact done ▸ backed.receipts.collect sid past
      | _ => cases keeps

theorem backed_after (calls : List Call) : (machine.after {} calls).Backed :=
  machine.invariant_after Db.Backed (fun _ call backed => backed.step call)
    (by constructor <;> (intro _ there; cases there)) calls

/-! ### What a call leaves of a receipt -/

/-- Every receipt is there unchanged, or has left the board. -/
def ResultsStay (db later : Db) : Prop :=
  ∀ row ∈ db.terminal.rows, row ∈ later.terminal.rows ∨ (row.standing = .onBoard ∧
    ∃ standing, standing ≠ .onBoard ∧ { row with standing := standing } ∈ later.terminal.rows)

theorem Call.result_moves (done : call.apply db = .ok db') (keeps : call.collects = false) :
    ResultsStay db db' := by
  intro row member
  cases Call.boardEffect done with
  | kept terminal seqs => exact .inl (terminal ▸ member)
  | published sid result clock here start new joined named onBoard schema publishes seqs =>
    exact .inl ((Table.mem_insert publishes.terminal).mpr (.inl member))
  | retired starts sessions retires moves rests =>
    have held := Table.find?_of_mem member
    rcases retires row.sessionId with kept | ⟨old, standing, found, onBoard, off, later⟩
    · exact .inl (Table.mem_of_find? (kept.trans held))
    · obtain rfl : old = row := Option.some.inj (found.symm.trans held)
      exact .inr ⟨onBoard, standing, off, Table.mem_of_find? later⟩
  | collected sid past here => simp [here, Call.collects] at keeps

theorem ResultsStay.trans {db'' : Db} (first : ResultsStay db db') (second : ResultsStay db' db'') :
    ResultsStay db db'' := by
  intro row member
  rcases first row member with same | ⟨onBoard, standing, off, gone⟩
  · exact second row same
  · rcases second _ gone with kept | ⟨back, -⟩
    · exact .inr ⟨onBoard, standing, off, kept⟩
    · exact absurd back off

theorem resultsStay_after {calls : List Call} (keep : ∀ call ∈ calls, call.collects = false) :
    ResultsStay db (machine.after db calls) := by
  have along : machine.Along (fun _ call => call.collects = false) db calls :=
    machine.along_of_forall keep
  refine machine.related_along ResultsStay (fun db row member => .inl member)
    ResultsStay.trans (fun db call keeps => ?_) along
  simp only [machine, settled]
  cases done : call.apply db with
  | error raised => exact fun row member => .inl member
  | ok db' => exact Call.result_moves done keeps

/-- A session keeps its owner. -/
def OwnersStay (db later : Db) : Prop :=
  ∀ sid owner, (db.findStart sid).map StartRow.ownerId = some owner →
    (later.findStart sid).map StartRow.ownerId = some owner

theorem Call.owner_stays (done : call.apply db = .ok db') (keeps : call.collects = false) :
    OwnersStay db db' := by
  intro sid owner owned
  cases Call.startsEffect done with
  | kept starts sessions => rw [Db.findStart, starts]; exact owned
  | created start spec creates found alive identified starts sessions =>
    rw [Db.findStart, starts]; exact owned
  | reserved request minted clock now reserves asked fresh starts sessions =>
    -- The id that is minted is nobody's yet.
    have taken := Table.fresh_of_insert starts
    rw [Db.findStart, Table.find?_insert starts, if_neg ?_]
    · exact owned
    · intro same
      rw [same] at taken
      rw [Db.findStart, taken] at owned
      cases owned
  | moved row row' found move starts sessions =>
    rw [Db.findStart, starts]
    by_cases same : row'.sessionId = sid
    · subst same
      have held : db.findStart row'.sessionId = some row := move.sessionId ▸ found
      have now : (db.starts.update row').find? row'.sessionId = some row' :=
        Table.find?_update_self held
      have keeps : row'.ownerId = row.ownerId := by cases move <;> rfl
      rw [held, Option.map_some] at owned
      rw [now, Option.map_some, keeps, owned]
    · rw [Table.find?_update_ne same]
      exact owned
  | collected sid past collects starts sessions => simp [collects, Call.collects] at keeps

theorem ownersStay_after {calls : List Call} (keep : ∀ call ∈ calls, call.collects = false) :
    OwnersStay db (machine.after db calls) := by
  have along : machine.Along (fun _ call => call.collects = false) db calls :=
    machine.along_of_forall keep
  refine machine.related_along OwnersStay (fun db sid owner owned => owned)
    (fun first second sid owner owned => second sid owner (first sid owner owned))
    (fun db call keeps => ?_) along
  simp only [machine, settled]
  cases done : call.apply db with
  | error raised => exact fun sid owner owned => owned
  | ok db' => exact Call.owner_stays done keeps

/-! ### The counter follows the board -/

theorem owner_same (backed : db.Backed) (stay : OwnersStay db db') {row : TerminalRow}
    (member : row ∈ db.terminal.rows) :
    (db'.findStart row.sessionId).map StartRow.ownerId = some owner ↔
      (db.findStart row.sessionId).map StartRow.ownerId = some owner := by
  obtain ⟨start, found, -⟩ := backed.start member
  have now := stay row.sessionId start.ownerId (by rw [found, Option.map_some])
  rw [now, found, Option.map_some]

/-- The board of an owner after a call that keeps every receipt of theirs as it was. -/
theorem board_same (backed : db.Backed) (backed' : db'.Backed) (stay : OwnersStay db db')
    (same : ∀ row, row.standing = .onBoard →
      (db.findStart row.sessionId).map StartRow.ownerId = some owner →
      (row ∈ db'.terminal.rows ↔ row ∈ db.terminal.rows))
    (old : ∀ row ∈ db'.terminal.rows, row.standing = .onBoard →
      (db'.findStart row.sessionId).map StartRow.ownerId = some owner → row ∈ db.terminal.rows) :
    db'.board owner = db.board owner := by
  ext row
  rw [mem_board backed, mem_board backed']
  constructor
  · rintro ⟨member, onBoard, owned⟩
    have there := old row member onBoard owned
    exact ⟨there, onBoard, (owner_same backed stay there).mp owned⟩
  · rintro ⟨member, onBoard, owned⟩
    exact ⟨(same row onBoard owned).mpr member, onBoard, (owner_same backed stay member).mpr owned⟩

/-- What is on the board after a retirement was on it before. -/
theorem Retires.before {before after : Table TerminalRow} (retires : Retires before after)
    {row : TerminalRow} (member : row ∈ after.rows) (onBoard : row.standing = .onBoard) :
    row ∈ before.rows := by
  have held := Table.find?_of_mem member
  rcases retires row.sessionId with kept | ⟨old, standing, -, -, off, later⟩
  · exact Table.mem_of_find? (kept.symm.trans held)
  · obtain rfl := Option.some.inj (later.symm.trans held)
    exact absurd onBoard off

/-- One call: the counter moves by one with the board, and rests with it. -/
theorem Call.board_moves (backed : db.Backed) (backed' : db'.Backed)
    (done : call.apply db = .ok db') (keeps : call.collects = false) (owner : String) :
    (db'.board owner = db.board owner ∧ db'.boardSeqOf owner = db.boardSeqOf owner) ∨
      (db'.board owner ≠ db.board owner ∧
        db'.boardSeqOf owner = db.boardSeqOf owner + 1) := by
  have stay := Call.owner_stays done keeps
  cases Call.boardEffect done with
  | kept terminal seqs =>
    refine .inl ⟨board_same backed backed' stay ?_ ?_, seqs owner⟩
    · intro row _ _
      rw [terminal]
    · intro row member _ _
      exact terminal ▸ member
  | published sid result clock here start new joined named onBoard schema publishes seqs =>
    have fresh := Table.fresh_of_insert publishes.terminal
    have absent : new ∉ db.terminal.rows := by
      intro member
      rw [Table.find?_of_mem member] at fresh
      cases fresh
    have found : db.findStart new.sessionId = some start :=
      named ▸ (joined_eq_some.mp joined).2
    rw [seqs owner]
    by_cases own : start.ownerId = owner
    · -- The owner of the new receipt sees it.
      refine .inr ⟨fun eq => ?_, if_pos own⟩
      have listed : new ∈ db'.board owner := by
        refine (mem_board backed').mpr ⟨(Table.mem_insert publishes.terminal).mpr (.inr rfl),
          onBoard, ?_⟩
        rw [Db.findStart, publishes.starts]
        exact (congrArg (Option.map StartRow.ownerId) found).trans (congrArg some own)
      rw [eq] at listed
      exact absent ((mem_board backed).mp listed).1
    · refine .inl ⟨board_same backed backed' stay ?_ ?_, if_neg own⟩
      · intro row _ owned
        rw [Table.mem_insert publishes.terminal]
        refine ⟨fun member => member.resolve_right ?_, .inl⟩
        rintro rfl
        rw [found, Option.map_some, Option.some.injEq] at owned
        exact own owned
      · intro row member _ owned
        refine ((Table.mem_insert publishes.terminal).mp member).resolve_right ?_
        rintro rfl
        rw [Db.findStart, publishes.starts, show db.starts.find? _ = _ from found, Option.map_some,
          Option.some.injEq] at owned
        exact own owned
  | retired starts sessions retires moves rests =>
    by_cases concerns : Concerns db db' owner
    · -- A receipt of the owner went off.
      refine .inr ⟨fun eq => ?_, moves owner concerns⟩
      obtain ⟨row, member, differs, owned⟩ := concerns
      have onBoard : row.standing = .onBoard := by
        rcases retires row.sessionId with kept | ⟨old, standing, found, onBoard, -, -⟩
        · exact absurd (kept.trans (Table.find?_of_mem member)) differs
        · obtain rfl := Option.some.inj (found.symm.trans (Table.find?_of_mem member))
          exact onBoard
      have listed : row ∈ db.board owner := (mem_board backed).mpr ⟨member, onBoard, owned⟩
      rw [← eq] at listed
      exact differs (Table.find?_of_mem ((mem_board backed').mp listed).1)
    · refine .inl ⟨board_same backed backed' stay ?_ ?_, rests owner concerns⟩
      · intro row onBoard owned
        refine ⟨fun member => retires.before member onBoard, fun member => ?_⟩
        by_contra gone
        exact concerns ⟨row, member, fun held => gone (Table.mem_of_find? held), owned⟩
      · intro row member onBoard _
        exact retires.before member onBoard
  | collected sid past here => simp [here, Call.collects] at keeps

/-- Every call, also one that is refused. -/
theorem board_step (backed : db.Backed) (keeps : call.collects = false) (owner : String) :
    ((machine.step db call).1.board owner = db.board owner ∧
        (machine.step db call).1.boardSeqOf owner = db.boardSeqOf owner) ∨
      ((machine.step db call).1.board owner ≠ db.board owner ∧
        (machine.step db call).1.boardSeqOf owner = db.boardSeqOf owner + 1) := by
  have backed' := backed.step call
  simp only [machine, settled] at backed' ⊢
  cases done : call.apply db with
  | error raised => exact .inl ⟨rfl, rfl⟩
  | ok db' =>
    rw [done] at backed'
    exact Call.board_moves backed backed' done keeps owner

/-! ### Publishing and acknowledging again -/

/-- The moment the owner dismissed a result: the column `acknowledged_at`. -/
def Standing.acknowledgedAt : Standing → Option ℚ
  | .acknowledged at_ => some at_
  | _ => none

/-- The moment a result was retired unseen: the column `expired_at`. -/
def Standing.expiredAt : Standing → Option ℚ
  | .expired at_ _ => some at_
  | _ => none

/-- A result that has its receipt is compared with it; nothing is written. -/
theorem Db.Backed.putTerminal_again (backed : db.Backed) {row : TerminalRow}
    (member : row ∈ db.terminal.rows) {result : TerminalResult} {endedAt : ℚ}
    (ended : result.endedAt = .finite endedAt) (publishedAt : ℚ) :
    db.putTerminal row.sessionId result (.finite publishedAt) =
      if Db.sameResult row result endedAt then .ok db
      else refuse .idempotencyConflict
        s!"{row.sessionId} already ended as {pyRepr row.terminalKind}" := by
  obtain ⟨held, -⟩ := backed.receipts row member
  obtain ⟨start, found, identified⟩ := backed.sessions row.sessionId held
  have joined : db.joined row.sessionId = some start := joined_eq_some.mpr ⟨held, found⟩
  have stored : db.terminal.find? row.sessionId = some row := Table.find?_of_mem member
  have passes : Db.checkIdentity start = .ok () := Db.checkIdentity_ok.mpr identified
  simp only [Db.putTerminal, joined, demand, timestamp, ended, passes, stored, bind, Except.bind,
    require]
  by_cases same : Db.sameResult row result endedAt
  · rw [if_pos same, if_pos same]
    rfl
  · rw [if_neg same, if_neg same]
    rfl

/-- Whatever is published for a session that has its receipt, the database stays. -/
theorem putTerminal_kept {row : TerminalRow} (member : row ∈ db.terminal.rows)
    (result : TerminalResult) (clock : Reading) :
    settled db (db.putTerminal row.sessionId result clock) = db := by
  cases done : db.putTerminal row.sessionId result clock with
  | error raised => rfl
  | ok db' =>
    rcases putTerminal_cases done with ⟨-, -, -, -, -, rfl⟩ | ⟨start, _, _, _, -, fresh, -⟩
    · rfl
    · have stored : db.terminal.find? row.sessionId = some row := Table.find?_of_mem member
      rw [stored] at fresh
      cases fresh

/-- The owner finds the receipt. -/
theorem Db.Backed.getTerminal (backed : db.Backed) {row : TerminalRow}
    (member : row ∈ db.terminal.rows) {ownerId : String}
    (owned : (db.findStart row.sessionId).map StartRow.ownerId = some ownerId) :
    ∃ start, db.getTerminal row.sessionId ownerId = .ok ⟨row, start⟩ := by
  obtain ⟨start, found, readable⟩ := backed.start member
  have stored : db.terminal.find? row.sessionId = some row := Table.find?_of_mem member
  rw [found, Option.map_some, Option.some.injEq] at owned
  refine ⟨start, ?_⟩
  simp [Db.getTerminal, bind_ok, stored, found, owned, readable, pure, Except.pure]

theorem Db.Backed.ackTerminal_off (backed : db.Backed) {row : TerminalRow}
    (member : row ∈ db.terminal.rows) {ownerId : String}
    (owned : (db.findStart row.sessionId).map StartRow.ownerId = some ownerId) (clock : Reading) :
    (row.standing.acknowledgedAt.isSome → db.ackTerminal row.sessionId ownerId clock = .ok db) ∧
      (row.standing.expiredAt.isSome → ∃ message,
        db.ackTerminal row.sessionId ownerId clock = refuse .terminalExpired message) := by
  obtain ⟨start, found⟩ := backed.getTerminal member owned
  unfold Db.ackTerminal
  rw [found]
  cases standing : row.standing with
  | onBoard => exact ⟨nofun, nofun⟩
  | acknowledged at_ =>
    refine ⟨fun _ => ?_, nofun⟩
    simp only [bind, Except.bind, standing]
    rfl
  | expired at_ reason =>
    refine ⟨nofun, fun _ =>
      ⟨s!"{row.sessionId} expired ({reason.spelling}) before it was acknowledged", ?_⟩⟩
    simp only [bind, Except.bind, standing]

/-! ### The law -/

theorem standing_cases (standing : Standing) :
    standing = .onBoard ∨ standing.acknowledgedAt.isSome ∨ standing.expiredAt.isSome := by
  cases standing <;> simp [Standing.acknowledgedAt, Standing.expiredAt]

/-- What has a moment of leaving is off the board. -/
theorem off_of_left {standing : Standing}
    (left : standing.acknowledgedAt.isSome ∨ standing.expiredAt.isSome) : standing ≠ .onBoard := by
  rintro rfl
  simp [Standing.acknowledgedAt, Standing.expiredAt] at left

theorem Standing.expiredAt_of_acknowledgedAt {standing : Standing} {at_ : ℚ}
    (acknowledged : standing.acknowledgedAt = some at_) : standing.expiredAt = none := by
  cases standing <;> simp_all [Standing.acknowledgedAt, Standing.expiredAt]

theorem Standing.acknowledgedAt_of_expiredAt {standing : Standing} {at_ : ℚ}
    (expired : standing.expiredAt = some at_) : standing.acknowledgedAt = none := by
  cases standing <;> simp_all [Standing.acknowledgedAt, Standing.expiredAt]

/-- A publication that is accepted leaves its receipt: the one that was there and nothing else, or a
new one on the owner's board, whose counter moves by one. -/
theorem Db.Backed.putTerminal_published (backed : db.Backed) {sessionId : String}
    {result : TerminalResult} {clock : Reading}
    (done : db.putTerminal sessionId result clock = .ok db') :
    ∃ row ∈ db'.terminal.rows, row.sessionId = sessionId ∧
      (∃ endedAt, result.endedAt = .finite endedAt ∧ Db.sameResult row result endedAt) ∧
      (db' = db ∨ db.terminal.find? sessionId = none ∧ clock = .finite row.publishedAt ∧
        ∃ owner, row ∈ db'.board owner ∧ db'.boardSeqOf owner = db.boardSeqOf owner + 1) := by
  have backed' : db'.Backed := by
    have kept := backed.step (.putTerminal sessionId result clock)
    simpa only [machine, settled, Call.apply, done] using kept
  rcases putTerminal_cases done with ⟨row, endedAt, found, ended, same, rfl⟩ |
    ⟨start, endedAt, publishedAt, seq, joined, fresh, ended, clocked, publishes⟩
  · exact ⟨row, Table.mem_of_find? found, Table.key_of_find? found, ⟨endedAt, ended, same⟩, .inl rfl⟩
  · have member := (Table.mem_insert publishes.terminal).mpr (.inr rfl)
    refine ⟨_, member, rfl, ⟨endedAt, ended, rfl, rfl, rfl⟩, .inr ⟨fresh, clocked, start.ownerId, ?_⟩⟩
    have owned : (db'.findStart sessionId).map StartRow.ownerId = some start.ownerId := by
      rw [Db.findStart, publishes.starts]
      exact congrArg (Option.map StartRow.ownerId) (joined_eq_some.mp joined).2
    refine ⟨(mem_board backed').mpr ⟨member, rfl, owned⟩, ?_⟩
    cases putTerminal_board done with
    | kept terminal =>
      -- The table has grown.
      have now := Table.find?_of_mem member
      rw [terminal] at now
      exact absurd (fresh.symm.trans now) (by simp)
    | published sid result' clock' here start' row' joined' named onBoard schema publishes' seqs =>
      cases here
      obtain rfl : start = start' := Option.some.inj (joined.symm.trans joined')
      rw [seqs, if_pos rfl]
    | retired starts sessions retires =>
      have now := Table.find?_of_mem member
      rcases retires sessionId with kept | ⟨old, standing, found, -⟩
      · exact absurd ((fresh.symm.trans kept.symm).trans now) (by simp)
      · exact absurd (fresh.symm.trans found) (by simp)
    | collected sid past here => cases here

/-- An acknowledgement that is accepted leaves the receipt acknowledged: as it was, or taken off the
board now. -/
theorem ackTerminal_acknowledged {sessionId ownerId : String} {clock : Reading}
    (done : db.ackTerminal sessionId ownerId clock = .ok db') :
    ∃ row ∈ db'.terminal.rows, row.sessionId = sessionId ∧ ∃ at_, row.standing = .acknowledged at_ ∧
      (db' = db ∨ clock = .finite at_ ∧ { row with standing := .onBoard } ∈ db.terminal.rows) := by
  simp only [Db.ackTerminal, bind_ok] at done
  obtain ⟨record, found, done⟩ := done
  simp only [Db.getTerminal, bind_ok, demand_ok, require_ok, pure, Except.pure,
    Except.ok.injEq, exists_const] at found
  obtain ⟨row, held, start, -, -, -, rfl⟩ := found
  have named : row.sessionId = sessionId := Table.key_of_find? held
  split at done
  · rename_i at_ standing
    cases done
    exact ⟨row, Table.mem_of_find? held, named, at_, standing, .inl rfl⟩
  · simp at done
  · rename_i onBoard
    simp only [bind_ok, timestamp_ok, pure, Except.pure, Except.ok.injEq] at done
    obtain ⟨now, clocked, rfl⟩ := done
    let dismissed : TerminalRow := { row with standing := .acknowledged now }
    have written : (db.terminal.update dismissed).find? dismissed.sessionId = some dismissed :=
      Table.find?_update_self (named ▸ held)
    refine ⟨dismissed, Table.mem_of_find? written, named, now, rfl, .inr ⟨clocked, ?_⟩⟩
    have before := Table.mem_of_find? held
    rwa [show row = { dismissed with standing := .onBoard } by rw [← onBoard]] at before

/-- The life of results between two moments of the store. -/
structure ResultsSettle (db after : Db) : Prop where
  /-- A result leaves its owner's board only by an acknowledgement or an expiry. -/
  leaves : ∀ owner, ∀ row ∈ db.board owner, row ∈ after.board owner ∨
    ∃ standing, { row with standing := standing } ∈ after.terminal.rows ∧
      (standing.acknowledgedAt.isSome ∨ standing.expiredAt.isSome)
  /-- One that is acknowledged keeps its moment and never expires. -/
  acknowledged : ∀ row ∈ db.terminal.rows, ∀ at_, row.standing.acknowledgedAt = some at_ →
    row ∈ after.terminal.rows ∧ ∀ other ∈ after.terminal.rows, other.sessionId = row.sessionId →
      other.standing.acknowledgedAt = some at_ ∧ other.standing.expiredAt = none
  /-- One that is expired keeps its moment and is never acknowledged. -/
  expired : ∀ row ∈ db.terminal.rows, ∀ at_, row.standing.expiredAt = some at_ →
    row ∈ after.terminal.rows ∧ ∀ other ∈ after.terminal.rows, other.sessionId = row.sessionId →
      other.standing.expiredAt = some at_ ∧ other.standing.acknowledgedAt = none
  /-- Neither is on a board again. -/
  gone : ∀ row ∈ db.terminal.rows,
    row.standing.acknowledgedAt.isSome ∨ row.standing.expiredAt.isSome →
    ∀ owner, ∀ other ∈ after.board owner, other.sessionId ≠ row.sessionId
  /-- A publication that is accepted leaves its receipt: what was there, or a new one on the board. -/
  published : ∀ sessionId result clock db', after.putTerminal sessionId result clock = .ok db' →
    ∃ row ∈ db'.terminal.rows, row.sessionId = sessionId ∧
      (∃ endedAt, result.endedAt = .finite endedAt ∧ Db.sameResult row result endedAt) ∧
      (db' = after ∨ after.terminal.find? sessionId = none ∧ clock = .finite row.publishedAt ∧
        ∃ owner, row ∈ db'.board owner ∧ db'.boardSeqOf owner = after.boardSeqOf owner + 1)
  /-- From then on the same result changes nothing, and another one is a conflict. -/
  again : ∀ row ∈ db.terminal.rows, ∀ result endedAt publishedAt, result.endedAt = .finite endedAt →
    (Db.sameResult row result endedAt →
      after.putTerminal row.sessionId result (.finite publishedAt) = .ok after) ∧
    (¬ Db.sameResult row result endedAt → ∃ message,
      after.putTerminal row.sessionId result (.finite publishedAt) =
        refuse .idempotencyConflict message)
  /-- Whatever is published for a session that has its receipt, nothing changes. -/
  kept : ∀ row ∈ db.terminal.rows, ∀ result clock,
    settled after (after.putTerminal row.sessionId result clock) = after
  /-- An acknowledgement that is accepted leaves the receipt acknowledged. -/
  dismissed : ∀ sessionId ownerId clock db', after.ackTerminal sessionId ownerId clock = .ok db' →
    ∃ row ∈ db'.terminal.rows, row.sessionId = sessionId ∧ ∃ at_, row.standing = .acknowledged at_ ∧
      (db' = after ∨
        clock = .finite at_ ∧ { row with standing := .onBoard } ∈ after.terminal.rows)
  /-- A repeated one changes nothing, and an expired result cannot be acknowledged. -/
  repeated : ∀ row ∈ db.terminal.rows, ∀ ownerId,
    (db.findStart row.sessionId).map StartRow.ownerId = some ownerId → ∀ clock,
    (row.standing.acknowledgedAt.isSome →
      after.ackTerminal row.sessionId ownerId clock = .ok after) ∧
    (row.standing.expiredAt.isSome → ∃ message,
      after.ackTerminal row.sessionId ownerId clock = refuse .terminalExpired message)

/-- A receipt off the board is there afterwards, and is the only one of its session. -/
theorem ResultsStay.off (stay : ResultsStay db db') {row : TerminalRow}
    (member : row ∈ db.terminal.rows) (left : row.standing ≠ .onBoard) :
    row ∈ db'.terminal.rows ∧
      ∀ other ∈ db'.terminal.rows, other.sessionId = row.sessionId → other = row := by
  have same := (stay row member).resolve_right fun moved => left moved.1
  exact ⟨same, fun other there named => Table.eq_of_key there same named⟩

/-- A receipt is there afterwards, wherever it stands. -/
theorem ResultsStay.found (stay : ResultsStay db db') {row : TerminalRow}
    (member : row ∈ db.terminal.rows) :
    ∃ standing, { row with standing := standing } ∈ db'.terminal.rows := by
  rcases stay row member with same | ⟨-, standing, -, moved⟩
  · exact ⟨row.standing, same⟩
  · exact ⟨standing, moved⟩

/-- What holds of results, in any database that calls have produced and over whatever calls come
later; only the collector's call is left out of what comes later. -/
theorem results_settle (calls later : List Call)
    (keep : ∀ call ∈ later, call.collects = false) :
    ResultsSettle (machine.after {} calls) (machine.after (machine.after {} calls) later) := by
  have backed := backed_after calls
  have backedAfter : (machine.after (machine.after {} calls) later).Backed := by
    have all := backed_after (calls ++ later)
    rwa [machine.after_append] at all
  have stay : ResultsStay (machine.after {} calls) (machine.after (machine.after {} calls) later) :=
    resultsStay_after keep
  generalize machine.after {} calls = db at *
  have owners : OwnersStay db (machine.after db later) := ownersStay_after keep
  generalize machine.after db later = after at *
  exact
    { leaves := fun owner row listed => by
        obtain ⟨member, onBoard, owned⟩ := (mem_board backed).mp listed
        rcases stay row member with same | ⟨-, standing, off, gone⟩
        · exact .inl ((mem_board backedAfter).mpr ⟨same, onBoard, owners _ _ owned⟩)
        · exact .inr ⟨standing, gone, (standing_cases standing).resolve_left off⟩
      acknowledged := fun row member at_ moment => by
        obtain ⟨same, only⟩ := stay.off member (off_of_left (.inl (by simp [moment])))
        refine ⟨same, fun other there named => ?_⟩
        obtain rfl := only other there named
        exact ⟨moment, Standing.expiredAt_of_acknowledgedAt moment⟩
      expired := fun row member at_ moment => by
        obtain ⟨same, only⟩ := stay.off member (off_of_left (.inr (by simp [moment])))
        refine ⟨same, fun other there named => ?_⟩
        obtain rfl := only other there named
        exact ⟨moment, Standing.acknowledgedAt_of_expiredAt moment⟩
      gone := fun row member left owner other listed named => by
        -- The session has one receipt, and it is off the board.
        obtain ⟨there, onBoard, -⟩ := (mem_board backedAfter).mp listed
        have off := off_of_left left
        exact off ((stay.off member off).2 other there named ▸ onBoard)
      published := fun _ _ _ _ done => backedAfter.putTerminal_published done
      again := fun row member result endedAt publishedAt ended => by
        obtain ⟨standing, there⟩ := stay.found member
        have compared := backedAfter.putTerminal_again there ended publishedAt
        exact ⟨fun same => compared.trans (if_pos same), fun other => ⟨_, compared.trans (if_neg other)⟩⟩
      kept := fun row member result clock => by
        obtain ⟨standing, there⟩ := stay.found member
        exact putTerminal_kept there result clock
      dismissed := fun _ _ _ _ done => ackTerminal_acknowledged done
      repeated := fun row member ownerId owned clock => by
        have moved := owners _ _ owned
        have still := fun left => (stay.off member (off_of_left left)).1
        exact ⟨fun moment => (backedAfter.ackTerminal_off (still (.inl moment)) moved clock).1 moment,
          fun moment => (backedAfter.ackTerminal_off (still (.inr moment)) moved clock).2 moment⟩ }

/-- A result is dismissed after its session ended. -/
def dismissedOnFirst : List Call :=
  endedOnFirst ++ [.ackTerminal sampleId.value "owner" (.finite 4)]

/-- A receipt that was acknowledged outlives a pruning of everything and a retry. -/
theorem results_settle_acknowledged :
    ∃ row ∈ (machine.after {} dismissedOnFirst).terminal.rows,
      row.standing.acknowledgedAt = some 4 ∧
      row ∈ (machine.after (machine.after {} dismissedOnFirst)
        [.pruneTerminal (.int 0) 0 (.finite 9),
          .ackTerminal sampleId.value "owner" (.finite 9)]).terminal.rows := by
  have there : ∃ row ∈ (machine.after {} dismissedOnFirst).terminal.rows,
      row.standing.acknowledgedAt = some 4 := by
    decide +kernel
  obtain ⟨row, member, off⟩ := there
  have kept := results_settle dismissedOnFirst [.pruneTerminal (.int 0) 0 (.finite 9),
    .ackTerminal sampleId.value "owner" (.finite 9)] (by simp [Call.collects])
  exact ⟨row, member, off, (kept.acknowledged row member 4 off).1⟩

end Nelix.Store
