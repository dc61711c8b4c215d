import Nelix.Store.EpochRuns

/-!
# Sessions and receipts under every call

`ReceiptsEffect` says once what a call can do to the receipts. Every session row has a start that
passes the identity check, so a receipt can always be written for it.
-/
namespace Nelix.Store

open Contracts Core

variable {db db' : Db} {call : Call}

/-! ### Sessions are backed by their starts -/

/-- The start of a session that has its row is there and passes the identity check. -/
def SessionsBacked (db : Db) : Prop :=
  ∀ sid, (db.sessions.find? sid).isSome → ∃ start, db.findStart sid = some start ∧
    start.identified = true

theorem StartMove.identified {row row' : StartRow} (move : StartMove call db row row')
    (identified : row.identified = true) : row'.identified = true := by
  cases move with
  | bound generationId generationEpoch assigns starting same valid =>
    simp_all [StartRow.identified]
  | committed alive assigned => exact identified
  | failed reason starting unused => exact identified

theorem StartMove.sessionId {row row' : StartRow} (move : StartMove call db row row') :
    row'.sessionId = row.sessionId := by
  cases move <;> rfl

theorem SessionsBacked.keeps (backed : SessionsBacked db) (effect : StartsEffect call db db') :
    SessionsBacked db' := by
  intro sid held
  cases effect with
  | kept starts sessions =>
    rw [sessions] at held
    rw [Db.findStart, starts]
    exact backed sid held
  | reserved request minted clock now reserves asked fresh starts sessions =>
    rw [sessions] at held
    obtain ⟨start, found, identified⟩ := backed sid held
    -- A session row is older than any reservation its id could be minted for.
    have taken := Table.fresh_of_insert starts
    refine ⟨start, ?_, identified⟩
    rw [Db.findStart, Table.find?_insert starts, if_neg ?_]
    · exact found
    · intro same
      rw [same] at taken
      exact absurd (taken.symm.trans found) (by simp)
  | moved row row' found move starts sessions =>
    rw [sessions] at held
    obtain ⟨start, here, identified⟩ := backed sid held
    rw [Db.findStart, starts]
    by_cases same : row'.sessionId = sid
    · subst same
      have found : db.findStart row'.sessionId = some row := move.sessionId ▸ found
      obtain rfl : start = row := Option.some.inj (here.symm.trans found)
      exact ⟨row', Table.find?_update_self found, move.identified identified⟩
    · exact ⟨start, (Table.find?_update_ne same).trans here, identified⟩
  | created start spec creates found alive identified starts sessions =>
    rw [Db.findStart, starts]
    rw [sessions, Bool.or_eq_true, decide_eq_true_eq] at held
    rcases held with rfl | held
    · exact ⟨start, found, identified⟩
    · exact backed sid held
  | collected sessionId pastHorizon collects starts sessions =>
    rw [sessions, Table.find?_erase] at held
    split at held
    · cases held
    · rename_i other
      obtain ⟨start, found, identified⟩ := backed sid held
      refine ⟨start, ?_, identified⟩
      rcases starts with starts | starts
      · rw [Db.findStart, starts]
        exact found
      · rw [Db.findStart, starts, Table.find?_erase, if_neg other]
        exact found

theorem SessionsBacked.step (backed : SessionsBacked db) (call : Call) :
    SessionsBacked (machine.step db call).1 := by
  simp only [machine, settled]
  cases done : call.apply db with
  | error raised => exact backed
  | ok db' => exact backed.keeps (Call.startsEffect done)

theorem sessionsBacked_after (calls : List Call) : SessionsBacked (machine.after {} calls) :=
  machine.invariant_after SessionsBacked (fun _ call backed => backed.step call)
    (fun _ held => by cases held) calls

/-! ### Publishing a receipt -/

theorem progressOf_key (db : Db) (e : String) : (db.progressOf e).generationEpoch = e := by
  unfold Db.progressOf
  cases found : db.progress.find? e with
  | none => rfl
  | some row => exact Table.key_of_find? found

theorem progressOf_setProgress (row : ProgressRow) (e : String) :
    (db.setProgress row).progressOf e =
      if row.generationEpoch = e then row else db.progressOf e := by
  unfold Db.setProgress Db.progressOf
  cases inserted : db.progress.insert row with
  | some progress =>
    simp only [Option.getD_some, Table.find?_insert inserted, Keyed.key]
    split <;> rfl
  | none =>
    -- The epoch has its counters already.
    obtain ⟨old, found⟩ := Table.insert_eq_none.mp inserted
    simp only [Option.getD_none, Table.find?_update, Keyed.key] at found ⊢
    split
    · rename_i same
      subst same
      rw [found]
      rfl
    · rfl

/-- A receipt is written: it takes the next number of its epoch, and its owner's board moves on. -/
structure Publishes (db db' : Db) (start : StartRow) (row : TerminalRow) : Prop where
  starts : db'.starts = db.starts
  sessions : db'.sessions = db.sessions
  epochs : db'.epochs = db.epochs
  generations : db'.generations = db.generations
  terminal : db.terminal.insert row = some db'.terminal
  numbered : row.terminalSeq =
    (db.progressOf (start.generationEpoch.getD start.sessionId)).nextTerminalSeq
  progress : ∀ e, db'.progressOf e =
    if start.generationEpoch.getD start.sessionId = e then
      { db.progressOf e with nextTerminalSeq := (db.progressOf e).nextTerminalSeq + 1 }
    else db.progressOf e

/-- The receipt that a result makes. -/
def TerminalResult.receipt (result : TerminalResult) (sessionId : String) (endedAt publishedAt : ℚ)
    (seq : ℕ) : TerminalRow where
  sessionId := sessionId
  terminalKind := result.terminalKind
  summary := result.summary
  endedAt := endedAt
  publishedAt := publishedAt
  terminalSeq := seq
  standing := .onBoard
  schemaVersion := currentSchema

/-- What a publication that went through did: nothing for the same result, or a new receipt. -/
theorem putTerminal_cases {sessionId : String} {result : TerminalResult} {clock : Reading}
    (done : db.putTerminal sessionId result clock = .ok db') :
    (∃ row endedAt, db.terminal.find? sessionId = some row ∧ result.endedAt = .finite endedAt ∧
        Db.sameResult row result endedAt ∧ db' = db) ∨
      ∃ start endedAt publishedAt seq, db.joined sessionId = some start ∧
        db.terminal.find? sessionId = none ∧ result.endedAt = .finite endedAt ∧
        clock = .finite publishedAt ∧
        Publishes db db' start (result.receipt sessionId endedAt publishedAt seq) := by
  simp only [Db.putTerminal, bind_ok, demand_ok, timestamp_ok] at done
  obtain ⟨start, joined, publishedAt, clocked, _, -, endedAt, ended, done⟩ := done
  cases stored : db.terminal.find? sessionId with
  | some existing =>
    simp only [stored, bind_ok, require_ok, pure, Except.pure, Except.ok.injEq,
      exists_const] at done
    obtain ⟨same, rfl⟩ := done
    exact .inl ⟨existing, endedAt, rfl, ended, same, rfl⟩
  | none =>
    simp only [stored, bind_ok, demand_ok, pure, Except.pure, Except.ok.injEq] at done
    obtain ⟨terminal, inserted, rfl⟩ := done
    refine .inr ⟨start, endedAt, publishedAt, _, joined, rfl, ended, clocked,
      ⟨rfl, rfl, rfl, rfl, inserted, rfl, fun e => ?_⟩⟩
    -- The board's counter is apart from the epoch's.
    have written : ∀ row, (Db.setProgress { db with terminal := terminal } row).progressOf e =
        if row.generationEpoch = e then row else db.progressOf e :=
      fun row => progressOf_setProgress row e
    refine (written _).trans ?_
    by_cases same : start.generationEpoch.getD start.sessionId = e
    · subst same
      have own : (db.progressOf (start.generationEpoch.getD start.sessionId)).generationEpoch =
          start.generationEpoch.getD start.sessionId := progressOf_key db _
      simp [own]
    · have other : ¬ (db.progressOf (start.generationEpoch.getD start.sessionId)).generationEpoch =
          e := fun eq => same ((progressOf_key db _).symm.trans eq)
      simp only [if_neg same]
      rw [if_neg other]

/-! ### What a call does to the receipts -/

/-- The receipt of a session as it was published. -/
def Db.receipt (db : Db) (sessionId : String) : Option TerminalRow :=
  (db.terminal.find? sessionId).map fun row => { row with standing := .onBoard }

/-- What a call does to the receipts, wherever they stand. -/
inductive ReceiptsEffect (call : Call) (db db' : Db) : Prop
  | kept (receipts : ∀ sid, db'.receipt sid = db.receipt sid)
  | published (sessionId : String) (result : TerminalResult) (clock : Reading)
      (here : call = .putTerminal sessionId result clock) (start : StartRow)
      (endedAt publishedAt : ℚ) (seq : ℕ) (joined : db.joined sessionId = some start)
      (fresh : db.terminal.find? sessionId = none)
      (publishes : Publishes db db' start (result.receipt sessionId endedAt publishedAt seq))
  | collected (sessionId : String) (pastHorizon : Bool)
      (here : call = .collectSession sessionId pastHorizon)
      (terminal : db'.terminal = db.terminal.erase sessionId)

theorem ReceiptsEffect.of_same (terminal : db'.terminal = db.terminal) :
    ReceiptsEffect call db db' := .kept fun sid => by rw [Db.receipt, Db.receipt, terminal]

theorem foldl_bumpBoardSeq_terminal (owners : List String) (db : Db) :
    (owners.foldl Db.bumpBoardSeq db).terminal = db.terminal := by
  induction owners generalizing db with
  | nil => rfl
  | cons owner rest ih => exact ih (db.bumpBoardSeq owner)

theorem receipt_expireWhere (db : Db) (picked : TerminalRow → Bool) (now : ℚ)
    (reason : ExpireReason) (sid : String) :
    (db.expireWhere picked now reason).receipt sid = db.receipt sid := by
  simp only [Db.receipt, Db.expireWhere, Table.find?_amend, Option.map_map, Function.comp_def]
  congr 1
  funext row
  split <;> rfl

theorem ackTerminal_receipts {sessionId ownerId : String} {clock : Reading}
    (done : db.ackTerminal sessionId ownerId clock = .ok db') : ReceiptsEffect call db db' := by
  simp only [Db.ackTerminal, bind_ok] at done
  obtain ⟨record, found, done⟩ := done
  split at done
  · cases done
    exact .of_same rfl
  · simp at done
  · simp only [bind_ok, pure, Except.pure, Except.ok.injEq] at done
    obtain ⟨now, -, rfl⟩ := done
    simp only [Db.getTerminal, bind_ok, demand_ok, require_ok, pure, Except.pure,
      Except.ok.injEq, exists_const] at found
    obtain ⟨row, held, start, -, -, -, rfl⟩ := found
    refine .kept fun sid => ?_
    simp only [Db.receipt, Db.bumpBoardSeq, Table.find?_update, Keyed.key]
    split
    · rename_i same
      obtain rfl : row.sessionId = sid := same
      have named : row.sessionId = sessionId := Table.key_of_find? held
      simp only [named, held, Option.map_some]
    · rfl

theorem pruneTerminal_receipts {maxAge : AgeLimit} {maxCount : ℤ} {clock : Reading} {n : ℕ}
    (done : db.pruneTerminal maxAge maxCount clock = .ok (n, db')) :
    ReceiptsEffect call db db' := by
  obtain ⟨age, now, -, -, -, -, -, -, -, rfl⟩ := Db.pruneTerminal_ok.mp done
  refine .kept fun sid => ?_
  rw [Db.receipt, Db.pruned, Db.expireTwice, foldl_bumpBoardSeq_terminal]
  exact (receipt_expireWhere _ _ _ _ sid).trans (receipt_expireWhere _ _ _ _ sid)

/-- A call of the ledger writes no receipt. -/
theorem ledger_terminal (done : call.apply db = .ok db') :
    match call with
    | .reserve .. | .assignGeneration .. | .commit .. | .fail .. | .createSession ..
    | .transitionSession .. => db'.terminal = db.terminal
    | _ => True := by
  cases call with
  | reserve request minted clock =>
    simp only [Call.apply] at done
    cases reply : db.reserve request minted clock with
    | error raised => simp [reply, Except.map] at done
    | ok r =>
      simp only [reply, Except.map, Except.ok.injEq] at done
      subst done
      simp only [Db.reserve, bind_ok] at reply
      obtain ⟨_, -, now, -, reply⟩ := reply
      split at reply
      · cases reply
        rfl
      · simp only [bind_ok, pure, Except.pure, Except.ok.injEq] at reply
        obtain ⟨_, -, _, -, rfl⟩ := reply
        rfl
  | assignGeneration =>
    simp only [Call.apply, Db.assignGeneration, bind_ok, pure, Except.pure,
      Except.ok.injEq] at done
    obtain ⟨_, -, _, -, _, -, _, -, _, -, rfl⟩ := done
    rfl
  | commit =>
    simp only [Call.apply, Db.commit, bind_ok, pure, Except.pure, Except.ok.injEq] at done
    obtain ⟨_, -, _, -, _, -, _, -, _, -, _, -, rfl⟩ := done
    rfl
  | fail =>
    simp only [Call.apply, Db.fail, bind_ok] at done
    obtain ⟨_, -, row, -, _, -, done⟩ := done
    split at done
    all_goals
      simp only [bind_ok, pure, Except.pure, Except.ok.injEq] at done
      obtain ⟨_, -, rfl⟩ := done
      rfl
  | createSession =>
    simp only [Call.apply, Db.createSession, bind_ok, pure, Except.pure, Except.ok.injEq] at done
    obtain ⟨_, -, _, -, _, -, _, -, _, -, _, -, rfl⟩ := done
    rfl
  | transitionSession =>
    simp only [Call.apply, Db.transitionSession, bind_ok, pure, Except.pure,
      Except.ok.injEq] at done
    obtain ⟨_, -, _, -, _, -, _, -, _, -, rfl⟩ := done
    rfl
  | _ => trivial

/-- What any call does to the receipts. -/
theorem Call.receiptsEffect (done : call.apply db = .ok db') : ReceiptsEffect call db db' := by
  have identity := Db.identity_ledger done
  have ledger := ledger_terminal done
  cases call with
  | putTerminal sid result clock =>
    rcases putTerminal_cases done with ⟨-, -, -, -, -, rfl⟩ |
      ⟨start, endedAt, publishedAt, seq, joined, fresh, -, -, publishes⟩
    · exact .of_same rfl
    · exact .published sid result clock rfl start endedAt publishedAt seq joined fresh publishes
  | ackTerminal => exact ackTerminal_receipts done
  | pruneTerminal age count clock =>
    simp only [Call.apply] at done
    cases reply : db.pruneTerminal age count clock with
    | error raised => simp [reply, Except.map] at done
    | ok r =>
      simp only [reply, Except.map, Except.ok.injEq] at done
      subst done
      exact pruneTerminal_receipts reply
  | collectSession sid past =>
    simp only [Call.apply, Except.ok.injEq] at done
    subst done
    exact .collected sid past rfl rfl
  | reserve => exact .of_same ledger
  | assignGeneration => exact .of_same ledger
  | commit => exact .of_same ledger
  | fail => exact .of_same ledger
  | createSession => exact .of_same ledger
  | transitionSession => exact .of_same ledger
  | _ => exact .of_same identity.2.2

@[simp] theorem receipt_isSome {sid : String} :
    (db.receipt sid).isSome = (db.terminal.find? sid).isSome := Option.isSome_map

/-- A receipt goes only with its session. -/
theorem Call.receipt_stays (done : call.apply db = .ok db') {sid : String}
    (held : (db'.sessions.find? sid).isSome) (receipt : (db.terminal.find? sid).isSome) :
    (db'.terminal.find? sid).isSome := by
  cases Call.receiptsEffect done with
  | kept receipts => rw [← receipt_isSome, receipts, receipt_isSome]; exact receipt
  | published sessionId result clock here start endedAt publishedAt seq joined fresh publishes =>
    rw [Table.find?_insert publishes.terminal]
    split
    · rfl
    · exact receipt
  | collected sessionId pastHorizon here terminal =>
    subst here
    simp only [Call.apply, Except.ok.injEq] at done
    subst done
    simp only [Db.collectSession, Table.find?_erase] at held ⊢
    split at held
    · cases held
    · rename_i other
      rw [if_neg other]
      exact receipt

/-! ### Outstanding sessions -/

theorem mem_listStarts {e : String} {start : StartRow} :
    start ∈ db.listStartsForEpoch e ↔ db.findStart start.sessionId = some start ∧
      start.generationEpoch = some e ∧ (db.sessions.find? start.sessionId).isSome ∧
      db.terminal.find? start.sessionId = none := by
  simp only [Db.listStartsForEpoch, List.mem_filter, Bool.and_eq_true, decide_eq_true_eq,
    Option.isNone_iff_eq_none, and_assoc]
  rw [show start ∈ db.starts.rows ↔ db.findStart start.sessionId = some start from Table.mem_rows]

theorem listStarts_distinct (db : Db) (e : String) :
    ((db.listStartsForEpoch e).map StartRow.sessionId).Nodup :=
  (List.filter_sublist.map StartRow.sessionId).nodup db.starts.distinct

/-- The receipt of an outstanding session can always be written. -/
theorem putTerminal_outstanding (backed : SessionsBacked db) {e : String} {start : StartRow}
    (outstanding : start ∈ db.listStartsForEpoch e) {result : TerminalResult} {endedAt : ℚ}
    (ended : result.endedAt = .finite endedAt) (publishedAt : ℚ) :
    ∃ db' seq, db.putTerminal start.sessionId result (.finite publishedAt) = .ok db' ∧
      Publishes db db' start (result.receipt start.sessionId endedAt publishedAt seq) := by
  obtain ⟨found, -, held, fresh⟩ := mem_listStarts.mp outstanding
  have joined : db.joined start.sessionId = some start := by
    unfold Db.joined
    cases session : db.sessions.find? start.sessionId with
    | none => simp [session] at held
    | some row => exact found
  obtain ⟨start', found', identified⟩ := backed start.sessionId held
  obtain rfl : start' = start := Option.some.inj (found'.symm.trans found)
  -- No receipt is there, so the insertion goes through.
  obtain ⟨terminal, inserted⟩ := Table.exists_insert
    (r := result.receipt start'.sessionId endedAt publishedAt
      (db.progressOf (start'.generationEpoch.getD start'.sessionId)).nextTerminalSeq) fresh
  have done : ∃ db', db.putTerminal start'.sessionId result (.finite publishedAt) = .ok db' := by
    unfold TerminalResult.receipt at inserted
    simp only [Db.putTerminal, joined, timestamp, ended, Db.checkIdentity_ok.mpr identified, fresh,
      inserted, demand, bind, Except.bind]
    exact ⟨_, rfl⟩
  obtain ⟨db', done⟩ := done
  rcases putTerminal_cases done with ⟨row, -, there, -⟩ |
    ⟨start, endedAt', publishedAt', seq, joined', -, ended', clocked, publishes⟩
  · rw [fresh] at there
    cases there
  · obtain rfl : start' = start := Option.some.inj (joined.symm.trans joined')
    obtain rfl : endedAt = endedAt' := by rw [ended] at ended'; cases ended'; rfl
    cases clocked
    exact ⟨db', seq, done, publishes⟩

/-- The call brings no session into the epoch: it binds no start to it and creates no session of a
start that is bound to it. -/
def Call.spares (e : String) (db : Db) : Call → Prop
  | .createSession sessionId _ =>
    ∀ start, db.findStart sessionId = some start → start.generationEpoch ≠ some e
  | .assignGeneration _ _ generationEpoch => generationEpoch ≠ e
  | _ => True

/-- What is outstanding afterwards was outstanding before, under the same id. -/
theorem Call.outstanding_before (done : call.apply db = .ok db') {e : String}
    (spares : call.spares e db) {start' : StartRow} (outstanding : start' ∈ db'.listStartsForEpoch e) :
    ∃ start ∈ db.listStartsForEpoch e, start.sessionId = start'.sessionId := by
  obtain ⟨found', bound, held', fresh'⟩ := mem_listStarts.mp outstanding
  -- A receipt that was there would be there still.
  have fresh : db.terminal.find? start'.sessionId = none := by
    by_contra receipt
    have still := Call.receipt_stays done held' (Option.isSome_iff_ne_none.mpr receipt)
    rw [fresh'] at still
    cases still
  have same : ∀ start, db.findStart start'.sessionId = some start →
      start.generationEpoch = some e → (db.sessions.find? start'.sessionId).isSome →
      ∃ start ∈ db.listStartsForEpoch e, start.sessionId = start'.sessionId := by
    intro start found here held
    have named := Db.sessionId_of_findStart found
    exact ⟨start, mem_listStarts.mpr (by rw [named]; exact ⟨found, here, held, fresh⟩), named⟩
  cases Call.startsEffect done with
  | kept starts sessions =>
    rw [sessions] at held'
    exact same start' (by rw [Db.findStart, ← starts]; exact found') bound held'
  | reserved request minted clock now reserves asked unused starts sessions =>
    rw [Db.findStart, Table.find?_insert starts] at found'
    rw [sessions] at held'
    split at found'
    · -- A reservation is bound to no epoch.
      cases found'
      cases bound
    · exact same start' found' bound held'
  | moved row row' found move starts sessions =>
    rw [sessions] at held'
    rw [Db.findStart, starts, Table.find?_update] at found'
    split at found'
    · rename_i key
      rw [show Keyed.key row' = row'.sessionId from rfl, move.sessionId] at key
      rw [← key] at held' fresh same ⊢
      rw [← key, show db.starts.find? row.sessionId = some row from found] at found'
      cases found'
      refine same row found ?_ held'
      cases move with
      | bound generationId generationEpoch assigns starting agrees valid =>
        subst assigns
        exact absurd (Option.some.inj bound) spares
      | committed alive assigned => exact bound
      | failed reason starting unused => exact bound
    · exact same start' found' bound held'
  | created start spec creates found alive identified starts sessions =>
    rw [Db.findStart, starts] at found'
    rw [sessions, Bool.or_eq_true, decide_eq_true_eq] at held'
    subst creates
    rcases held' with own | held
    · rw [own] at found'
      exact absurd bound (spares start' found')
    · exact same start' found' bound held
  | collected sessionId pastHorizon collects starts sessions =>
    rw [sessions, Table.find?_erase] at held'
    split at held'
    · cases held'
    · rename_i other
      refine same start' ?_ bound held'
      rcases starts with starts | starts
      · rw [Db.findStart, ← starts]
        exact found'
      · rw [Db.findStart, starts, Table.find?_erase, if_neg other] at found'
        exact found'

theorem foldr_max (rows : List TerminalRow) (n : ℕ) :
    rows.foldr (fun row high => max row.terminalSeq high) n =
      max (rows.foldr (fun row high => max row.terminalSeq high) 0) n := by
  induction rows with
  | nil => simp
  | cons row rest ih => rw [List.foldr_cons, List.foldr_cons, ih, max_assoc]

/-- The highest number of an epoch is the least bound of its receipts' numbers. -/
theorem highWater_le {e : String} {m : ℕ} :
    db.getGenerationPersistedHighWater e ≤ m ↔ ∀ row ∈ db.terminal.rows, ∀ start,
      db.findStart row.sessionId = some start → start.generationEpoch = some e →
        row.terminalSeq ≤ m := by
  unfold Db.getGenerationPersistedHighWater
  induction db.terminal.rows with
  | nil => simp
  | cons row rest ih =>
    rw [List.filter_cons]
    split
    · rename_i counts
      obtain ⟨start, found, bound⟩ := (Option.any_eq_true _ _).mp counts
      rw [List.foldr_cons, Nat.max_le, ih, List.forall_mem_cons]
      refine and_congr_left fun _ => ⟨fun small other found' _ => small, fun all => ?_⟩
      exact all start found (by simpa using bound)
    · rename_i apart
      rw [ih, List.forall_mem_cons]
      refine ⟨fun all => ⟨fun start found bound => absurd ?_ apart, all⟩, fun both => both.2⟩
      rw [found]
      simp [bound]

/-- A new receipt counts for its epoch. -/
theorem Publishes.highWater {start : StartRow} {row : TerminalRow} {e : String}
    (publishes : Publishes db db' start row) (found : db.findStart row.sessionId = some start)
    (bound : start.generationEpoch = some e) :
    db'.getGenerationPersistedHighWater e =
      max (db.getGenerationPersistedHighWater e) row.terminalSeq := by
  unfold Db.getGenerationPersistedHighWater
  have same : db'.findStart = db.findStart := by
    funext sid
    rw [Db.findStart, Db.findStart, publishes.starts]
  rw [same, Table.rows_insert publishes.terminal, List.filter_append, List.foldr_append]
  simp only [found, bound, Option.any_some, decide_true, List.filter_cons_of_pos,
    List.filter_nil, List.foldr_cons, List.foldr_nil]
  rw [foldr_max]
  simp

/-- One session less is outstanding. -/
theorem Publishes.listStarts {start other : StartRow} {row : TerminalRow} {e : String}
    (publishes : Publishes db db' start row) (outstanding : other ∈ db.listStartsForEpoch e)
    (apart : row.sessionId ≠ other.sessionId) : other ∈ db'.listStartsForEpoch e := by
  obtain ⟨found, bound, held, fresh⟩ := mem_listStarts.mp outstanding
  rw [mem_listStarts, Db.findStart, publishes.starts, publishes.sessions,
    Table.find?_insert publishes.terminal]
  exact ⟨found, bound, held, (if_neg apart).trans fresh⟩

theorem Publishes.backed {start : StartRow} {row : TerminalRow}
    (publishes : Publishes db db' start row) (backed : SessionsBacked db) : SessionsBacked db' := by
  intro sid held
  rw [publishes.sessions] at held
  rw [Db.findStart, publishes.starts]
  exact backed sid held

end Nelix.Store
