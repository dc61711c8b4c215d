import Nelix.Store.BoardRuns

/-!
# Waiting on the archive

The archive arm of the orchestration wait: between short forwards to the generation the router
looks at the counter of the owner's board and wakes the reader when it has passed the cursor.

## Main results

`board_changes_wake`: the counter moves exactly with the board, so a reader that took its cursor
from a snapshot is woken by the first look after any later change.
-/
namespace Nelix.Router

open Contracts Core Store

/-- What can keep the router from reading the counter. -/
inductive ReadFault
  | sqlite
  | os
  | refused (error : NelixError)

/-- The generation's answer to a bounded wait. -/
inductive Forwarded
  | unavailable
  | raised (error : NelixError)
  | resync
  | event
  | quiet
  deriving DecidableEq

/-- What a wait returns to the reader. Only `archive` moves the cursor's archive component. -/
inductive WaitReply
  | archive (seq : ℕ)
  | relayed
  | timedOut
  | raised (error : NelixError)
  deriving DecidableEq

/-- The rest of a turn of the loop, after the look at the counter. -/
def forwardTurn (inTime : Bool) (forwarded : Forwarded) : Option WaitReply :=
  if inTime then
    match forwarded with
    | .unavailable | .quiet => none
    | .raised error => some (.raised error)
    | .resync | .event => some .relayed
  else some .timedOut

/-- One turn of the loop: what it returns, or none where it goes round again. -/
def waitTurn (archiveSeq : ℕ) (read : Except ReadFault ℕ) (inTime : Bool)
    (forwarded : Forwarded) : Option WaitReply :=
  match read with
  | .ok currentSeq =>
    if archiveSeq < currentSeq then some (.archive currentSeq) else forwardTurn inTime forwarded
  | .error .sqlite | .error .os => forwardTurn inTime forwarded
  | .error (.refused error) =>
    if error.code = .storeUnavailable then forwardTurn inTime forwarded
    else some (.raised error)

/-- Reading the counter, which can fail for a while. -/
def readCounter (db : Db) (owner : String) (fault : Option ReadFault) : Except ReadFault ℕ :=
  match fault with
  | some met => .error met
  | none =>
    match db.getOwnerBoardSeq owner with
    | .ok seq => .ok seq
    | .error (.nelix error) => .error (.refused error)
    | .error _ => .error .os

/-- A reader of an owner's board beside everybody who writes to the store. -/
structure Reader where
  db : Db
  archiveSeq : ℕ

/-- What happens around a reader: a write by anyone, a turn of its wait, or a new snapshot. A wait
that returned is issued again with the cursor it returned. -/
inductive ReaderMove
  | write (call : Call)
  | turn (fault : Option ReadFault) (inTime : Bool) (forwarded : Forwarded)
  | snapshot

def ReaderMove.deletes : ReaderMove → Bool
  | .write call => call.collects
  | _ => false

def ReaderMove.refetches : ReaderMove → Bool
  | .snapshot => true
  | _ => false

/-- The cursor after a reply. -/
def Reader.moved (r : Reader) : Option WaitReply → Reader
  | some (.archive seq) => { r with archiveSeq := seq }
  | _ => r

def readerMachine (owner : String) : Machine Reader ReaderMove WaitReply where
  step r move :=
    match move with
    | .write call => ({ r with db := (machine.step r.db call).1 }, [])
    | .turn fault inTime forwarded =>
      let reply := waitTurn r.archiveSeq (readCounter r.db owner fault) inTime forwarded
      (r.moved reply, reply.toList)
    | .snapshot =>
      match r.db.readBoardSnapshot owner with
      | .ok (seq, _) => ({ r with archiveSeq := seq }, [])
      | .error _ => (r, [])

variable {owner : String} {r : Reader} {move : ReaderMove} {moves : List ReaderMove}

theorem readCounter_ok {db : Db} {fault : Option ReadFault} {seq : ℕ}
    (read : readCounter db owner fault = .ok seq) : seq = db.boardSeqOf owner := by
  unfold readCounter at read
  split at read
  · cases read
  · simp only [Db.getOwnerBoardSeq, requireText] at read
    split at read
    · rename_i found
      simp only [bind_ok, require_ok, pure, Except.pure, Except.ok.injEq, exists_const] at found
      exact (Except.ok.inj read).symm.trans found.2.symm
    · cases read
    · cases read

theorem readCounter_healthy (db : Db) (named : owner ≠ "") :
    readCounter db owner none = .ok (db.boardSeqOf owner) := by
  simp [readCounter, Db.getOwnerBoardSeq, requireText, require, named, bind, Except.bind, pure,
    Except.pure]

/-- Only a counter that has passed the cursor is announced. -/
theorem waitTurn_archive {archiveSeq seq : ℕ} {read : Except ReadFault ℕ} {inTime : Bool}
    {forwarded : Forwarded}
    (woken : waitTurn archiveSeq read inTime forwarded = some (.archive seq)) :
    read = .ok seq ∧ archiveSeq < seq := by
  have never : forwardTurn inTime forwarded ≠ some (.archive seq) := by
    unfold forwardTurn
    cases forwarded <;> cases inTime <;> simp
  unfold waitTurn at woken
  split at woken
  · split at woken
    · rename_i passed
      cases woken
      exact ⟨rfl, passed⟩
    · exact absurd woken never
  · exact absurd woken never
  · exact absurd woken never
  · split at woken
    · exact absurd woken never
    · cases woken

/-! ### The cursor and the counter -/

/-- The cursor has not passed the counter. -/
structure Reader.Behind (owner : String) (r : Reader) : Prop where
  backed : r.db.Backed
  cursor : r.archiveSeq ≤ r.db.boardSeqOf owner

theorem boardSeqOf_grows {db : Db} (backed : db.Backed) {call : Call}
    (keeps : call.collects = false) :
    db.boardSeqOf owner ≤ (machine.step db call).1.boardSeqOf owner := by
  rcases board_step backed keeps owner with ⟨-, seq⟩ | ⟨-, seq⟩
  · exact seq.ge
  · omega

theorem Reader.Behind.step (behind : r.Behind owner) (keeps : move.deletes = false) :
    ((readerMachine owner).step r move).1.Behind owner := by
  cases move with
  | write call =>
    exact ⟨behind.backed.step call,
      behind.cursor.trans (boardSeqOf_grows behind.backed keeps)⟩
  | turn fault inTime forwarded =>
    simp only [readerMachine]
    cases reply : waitTurn r.archiveSeq (readCounter r.db owner fault) inTime forwarded with
    | none => exact behind
    | some reply' =>
      cases reply' with
      | archive seq => exact ⟨behind.backed, (readCounter_ok (waitTurn_archive reply).1).le⟩
      | relayed => exact behind
      | timedOut => exact behind
      | raised error => exact behind
  | snapshot =>
    simp only [readerMachine]
    split
    · rename_i seq rows found
      refine ⟨behind.backed, le_of_eq ?_⟩
      simp only [Db.readBoardSnapshot, Db.getOwnerBoardSeq, bind_ok, pure, Except.pure,
        Except.ok.injEq, Prod.mk.injEq] at found
      obtain ⟨_, ⟨_, -, rfl⟩, rfl, -⟩ := found
      rfl
    · exact behind

/-- As long as the reader is neither woken nor refetches, a cursor that the counter has passed
stays passed. -/
theorem passed_until_woken (behind : r.Behind owner)
    (keep : ∀ move ∈ moves, move.deletes = false ∧ move.refetches = false)
    (passed : r.archiveSeq < r.db.boardSeqOf owner) :
    (∃ seq, .archive seq ∈ (readerMachine owner).outputs r moves) ∨
      ((readerMachine owner).after r moves).archiveSeq <
        ((readerMachine owner).after r moves).db.boardSeqOf owner := by
  induction moves generalizing r with
  | nil => exact .inr passed
  | cons move rest ih =>
    obtain ⟨keeps, stays⟩ := keep move (by simp)
    have later : ∀ move ∈ rest, move.deletes = false ∧ move.refetches = false :=
      fun move member => keep move (List.mem_cons_of_mem _ member)
    have next := behind.step keeps
    simp only [Machine.outputs_cons, Machine.after_cons, List.mem_append]
    -- The head either wakes the reader or leaves the cursor passed.
    have first : (∃ seq, .archive seq ∈ ((readerMachine owner).step r move).2) ∨
        ((readerMachine owner).step r move).1.archiveSeq <
          ((readerMachine owner).step r move).1.db.boardSeqOf owner := by
      cases move with
      | write call =>
        exact .inr (passed.trans_le (boardSeqOf_grows behind.backed keeps))
      | turn fault inTime forwarded =>
        simp only [readerMachine]
        cases reply : waitTurn r.archiveSeq (readCounter r.db owner fault) inTime forwarded with
        | none => exact .inr passed
        | some reply' =>
          cases reply' with
          | archive seq => exact .inl ⟨seq, by simp⟩
          | relayed => exact .inr passed
          | timedOut => exact .inr passed
          | raised error => exact .inr passed
      | snapshot => cases stays
    rcases first with ⟨seq, woken⟩ | passed'
    · exact .inl ⟨seq, .inl woken⟩
    · rcases ih next later passed' with ⟨seq, woken⟩ | still
      · exact .inl ⟨seq, .inr woken⟩
      · exact .inr still

/-- A healthy look at a counter that has passed the cursor wakes the reader. -/
theorem woken_of_passed (named : owner ≠ "") (passed : r.archiveSeq < r.db.boardSeqOf owner)
    (inTime : Bool) (forwarded : Forwarded) :
    ((readerMachine owner).step r (.turn none inTime forwarded)).2 =
      [.archive (r.db.boardSeqOf owner)] := by
  simp [readerMachine, readCounter_healthy r.db named, waitTurn, passed]

/-! ### The law -/

/-- Every call moves the counter of an owner by one with their board and rests with it, in any
database that calls have produced; the collector's call is left out. So whatever happened since the
reader took its snapshot: when a call changes the board, the reader is woken at the latest by the
first healthy look afterwards, unless it refetches before. -/
theorem board_changes_wake (owner : String) (calls : List Call) :
    let db := machine.after {} calls
    (∀ call, call.collects = false →
      ((machine.step db call).1.board owner ≠ db.board owner →
        (machine.step db call).1.boardSeqOf owner = db.boardSeqOf owner + 1) ∧
      ((machine.step db call).1.board owner = db.board owner →
        (machine.step db call).1.boardSeqOf owner = db.boardSeqOf owner)) ∧
    (∀ seq rows, db.readBoardSnapshot owner = .ok (seq, rows) →
      ∀ moves call later inTime forwarded,
        (∀ move ∈ moves ++ .write call :: later, move.deletes = false) →
        (∀ move ∈ later, move.refetches = false) →
        let reader := (readerMachine owner).after ⟨db, seq⟩ moves
        (machine.step reader.db call).1.board owner ≠ reader.db.board owner →
        ∃ woken, .archive woken ∈ (readerMachine owner).outputs reader
          (.write call :: later ++ [.turn none inTime forwarded])) := by
  intro db
  have backed : db.Backed := backed_after calls
  refine ⟨fun call keeps => ?_, ?_⟩
  · rcases board_step backed keeps owner with ⟨same, rests⟩ | ⟨differs, moves⟩
    · exact ⟨fun differs => absurd same differs, fun _ => rests⟩
    · exact ⟨fun _ => moves, fun same => absurd same differs⟩
  · intro seq rows taken moves call later inTime forwarded keep stay reader changed
    simp only [Db.readBoardSnapshot, Db.getOwnerBoardSeq, requireText, bind_ok, require_ok, pure,
      Except.pure, Except.ok.injEq, Prod.mk.injEq, exists_const] at taken
    obtain ⟨_, ⟨named, rfl⟩, rfl, -⟩ := taken
    have start : Reader.Behind owner ⟨db, db.boardSeqOf owner⟩ := ⟨backed, le_refl _⟩
    have along : (readerMachine owner).Along (fun _ move => move.deletes = false)
        ⟨db, db.boardSeqOf owner⟩ moves :=
      (readerMachine owner).along_of_forall fun move member =>
        keep move (List.mem_append_left _ member)
    have behind : reader.Behind owner :=
      (readerMachine owner).invariant_along (Reader.Behind owner)
        (fun _ _ behind keeps => behind.step keeps) start along
    have keeps : call.collects = false := keep (.write call) (by simp)
    -- The write that changes the board takes the counter past the cursor.
    let next : Reader := ((readerMachine owner).step reader (.write call)).1
    have nextBehind : next.Behind owner :=
      behind.step (show (ReaderMove.write call).deletes = false from keeps)
    have passed : next.archiveSeq < next.db.boardSeqOf owner := by
      rcases board_step behind.backed keeps owner with ⟨same, -⟩ | ⟨-, moved⟩
      · exact absurd same changed
      · show reader.archiveSeq < (machine.step reader.db call).1.boardSeqOf owner
        rw [moved]
        exact Nat.lt_succ_of_le behind.cursor
    have quiet : ∀ move ∈ later, move.deletes = false ∧ move.refetches = false :=
      fun move member => ⟨keep move (by simp [member]), stay move member⟩
    rw [List.cons_append, Machine.outputs_cons, Machine.outputs_append]
    rcases passed_until_woken nextBehind quiet passed with ⟨woken, here⟩ | still
    · exact ⟨woken, List.mem_append_right _ (List.mem_append_left _ here)⟩
    · have woken := woken_of_passed named still inTime forwarded
      refine ⟨((readerMachine owner).after next later).db.boardSeqOf owner,
        List.mem_append_right _ (List.mem_append_right _ ?_)⟩
      rw [Machine.outputs_cons, woken]
      exact List.mem_cons_self

/-- A session is running when the reader takes its snapshot, and ends afterwards. -/
def runningSample : Db := machine.after {} (endedOnFirst.take 3)

def endsSample : Call :=
  .putTerminal sampleId.value { terminalKind := "done", summary := "", endedAt := .finite 3 }
    (.finite 3)

theorem endsSample_changes :
    (machine.step runningSample endsSample).1.board "owner" ≠ runningSample.board "owner" := by
  intro same
  obtain ⟨record, listed⟩ : ∃ record,
      record ∈ (machine.step runningSample endsSample).1.listTerminal "owner" :=
    List.exists_mem_of_ne_nil _ (by decide +kernel)
  have shown : record.row ∈ (machine.step runningSample endsSample).1.board "owner" :=
    ⟨record, listed, rfl⟩
  rw [same] at shown
  obtain ⟨other, before, -⟩ := shown
  have empty : runningSample.listTerminal "owner" = [] := by decide +kernel
  rw [empty] at before
  cases before

/-- The reader of that owner's board is woken although its first look fails. -/
theorem board_changes_wake_ended :
    ∃ woken, .archive woken ∈ (readerMachine "owner").outputs ⟨runningSample, 0⟩
      [.write endsSample, .turn (some .sqlite) true .quiet, .turn none true .quiet] :=
  (board_changes_wake "owner" (endedOnFirst.take 3)).2 0 [] (by decide +kernel) [] endsSample
    [.turn (some .sqlite) true .quiet] true .quiet (by decide) (by decide) endsSample_changes

end Nelix.Router
