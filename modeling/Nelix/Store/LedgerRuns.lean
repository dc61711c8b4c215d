import Nelix.Store.Calls

/-!
# The ledger under every interleaving

## Main results

`ledger_laws`: one start for each owner and key, no failed start with a session, settled starts
stay, and a taken key answers with the original or a conflict.

`binding_kept`: a start that is bound to a generation and an epoch stays bound to them, as long as
nobody assigns it to another epoch of that generation.

Both rest on `StartsEffect`: what one call can do to the starts.
-/
namespace Nelix.Store

open Contracts Core

variable {db db' : Db} {call : Call}

/-! ### The invariant -/

/-- The rows under an owner and a key. -/
def Db.rowsOf (db : Db) (ownerId idempotencyKey : String) : List StartRow :=
  db.starts.rows.filter fun row => row.ownerId = ownerId ∧ row.idempotencyKey = idempotencyKey

/-- What holds of the starts in every reachable database. -/
structure LedgerOk (db : Db) : Prop where
  unique : ∀ owner key, (db.rowsOf owner key).length ≤ 1
  exclusive : ∀ row ∈ db.starts.rows, row.state = .failed →
    (db.sessions.find? row.sessionId).isSome = false
  shaped : ∀ row ∈ db.starts.rows, validSessionId row.sessionId = true ∧
    ∀ g ∈ row.generationId, validGenerationId g = true
  asked : ∀ row ∈ db.starts.rows, Db.checkRequest row.request = .ok ()

theorem LedgerOk.empty : LedgerOk {} where
  unique owner key := Nat.zero_le _
  exclusive row member := by cases member
  shaped row member := by cases member
  asked row member := by cases member

theorem startOf_eq_none {owner key : String} :
    db.startOf owner key = none ↔ db.rowsOf owner key = [] := by
  simp [Db.startOf, Db.rowsOf, List.filter_eq_nil_iff]

/-- The row that is found under a key is the only one. -/
theorem LedgerOk.rowsOf_eq (ok : LedgerOk db) {row : StartRow} (member : row ∈ db.starts.rows) :
    db.rowsOf row.ownerId row.idempotencyKey = [row] := by
  have listed : row ∈ db.rowsOf row.ownerId row.idempotencyKey :=
    List.mem_filter.mpr ⟨member, by simp⟩
  obtain ⟨before, after, split⟩ := List.append_of_mem listed
  have short := ok.unique row.ownerId row.idempotencyKey
  rw [split] at short ⊢
  simp only [List.length_append, List.length_cons] at short
  have noBefore : before = [] := List.length_eq_zero_iff.mp (by omega)
  have noAfter : after = [] := List.length_eq_zero_iff.mp (by omega)
  rw [noBefore, noAfter, List.nil_append]

theorem LedgerOk.startOf_eq (ok : LedgerOk db) {row : StartRow} (member : row ∈ db.starts.rows) :
    db.startOf row.ownerId row.idempotencyKey = some row := by
  have only := ok.rowsOf_eq member
  rw [Db.rowsOf] at only
  rw [Db.startOf, ← List.head?_filter, only, List.head?_cons]

/-! ### What a move keeps of a row -/

/-- A move keeps what identifies the start. -/
theorem StartMove.identity {row row' : StartRow} (move : StartMove call db row row') :
    row'.sessionId = row.sessionId ∧ row'.request = row.request := by
  cases move <;> exact ⟨rfl, rfl⟩

/-- Only a start that is still starting moves to another row. -/
theorem StartMove.starting_of_ne {row row' : StartRow} (move : StartMove call db row row')
    (changed : row' ≠ row) : row.state = .starting := by
  cases move with
  | bound generation epoch assigns starting same valid => exact starting
  | failed reason starting unused => exact starting
  | committed alive assigned =>
    cases state : row.state with
    | starting => rfl
    | failed => exact absurd state alive
    | started => exact absurd (by rw [← state]) changed

theorem rowsOf_update {row row' : StartRow} (move : StartMove call db row row') (owner key : String)
    (starts : db'.starts = db.starts.update row') (found : db.findStart row.sessionId = some row) :
    (db'.rowsOf owner key).length = (db.rowsOf owner key).length := by
  obtain ⟨id, request⟩ := move.identity
  have owns : row'.ownerId = row.ownerId := congrArg Request.ownerId request
  have keyed : row'.idempotencyKey = row.idempotencyKey :=
    congrArg Request.idempotencyKey request
  have same : db'.starts.rows.map (fun r => (r.ownerId, r.idempotencyKey))
      = db.starts.rows.map fun r => (r.ownerId, r.idempotencyKey) := by
    rw [starts]
    simp only [Table.update, List.map_map]
    refine List.map_congr_left fun old member => ?_
    simp only [Function.comp_apply, Keyed.key]
    split
    · rename_i hit
      have here : old = row := Table.eq_of_key member (Table.mem_of_find? found) (hit.trans id)
      rw [here, owns, keyed]
    · rfl
  have counted : ∀ rows : List StartRow,
      (rows.filter fun r => r.ownerId = owner ∧ r.idempotencyKey = key).length
        = (rows.map fun r => (r.ownerId, r.idempotencyKey)).count (owner, key) := by
    intro rows
    rw [List.count_eq_countP, List.countP_map, List.countP_eq_length_filter]
    congr 2
    funext r
    rw [Bool.eq_iff_iff]
    simp
  rw [Db.rowsOf, Db.rowsOf, counted, counted, same]

/-- Every call keeps the invariant. -/
theorem LedgerOk.keeps (ok : LedgerOk db) (effect : StartsEffect call db db') : LedgerOk db' := by
  cases effect with
  | kept starts sessions =>
    refine ⟨fun owner key => ?_, fun row member => ?_, fun row member => ?_, fun row member => ?_⟩
    · simpa only [Db.rowsOf, starts] using ok.unique owner key
    · rw [sessions]
      exact ok.exclusive row (starts ▸ member)
    · exact ok.shaped row (starts ▸ member)
    · exact ok.asked row (starts ▸ member)
  | reserved request minted clock now reserves asked fresh inserted sessions =>
    have either : ∀ row ∈ db'.starts.rows,
        row ∈ db.starts.rows ∨ row = Db.freshStart request minted now :=
      fun row member => (Table.mem_insert inserted).mp member
    refine ⟨fun owner key => ?_, fun row member => ?_, fun row member => ?_, fun row member => ?_⟩
    · rw [Db.rowsOf, Table.rows_insert inserted, List.filter_append, List.length_append]
      by_cases hit : request.ownerId = owner ∧ request.idempotencyKey = key
      · -- The key is the new one: nothing was filed under it before.
        obtain ⟨rfl, rfl⟩ := hit
        have nothing := startOf_eq_none.mp fresh
        rw [Db.rowsOf] at nothing
        rw [nothing]
        simp [Db.freshStart]
      · have before := ok.unique owner key
        rw [Db.rowsOf] at before
        simpa [Db.freshStart, hit] using before
    · rw [sessions]
      rcases either row member with old | rfl
      · exact ok.exclusive row old
      · intro failed
        cases failed
    · rcases either row member with old | rfl
      · exact ok.shaped row old
      · exact ⟨minted.valid, by simp [Db.freshStart]⟩
    · rcases either row member with old | rfl
      · exact ok.asked row old
      · exact asked
  | moved row row' found move starts sessions =>
    have id := move.identity.1
    have held : db.starts.find? row'.sessionId = some row := id ▸ found
    have before : row ∈ db.starts.rows := Table.mem_of_find? found
    have either : ∀ other ∈ db'.starts.rows, other = row' ∨ other ∈ db.starts.rows := by
      intro other member
      rw [starts] at member
      exact ((Table.mem_update held).mp member).imp_right And.left
    refine ⟨fun owner key => ?_, fun other member => ?_, fun other member => ?_,
      fun other member => ?_⟩
    · rw [rowsOf_update move owner key starts found]
      exact ok.unique owner key
    · rw [sessions]
      rcases either other member with rfl | old
      · cases move with
        | bound generation epoch assigns starting same valid =>
          intro failed
          rw [starting] at failed
          cases failed
        | committed alive assigned => intro failed; cases failed
        | failed reason starting unused =>
          -- A start fails only while it has no session.
          intro _
          rw [unused]
          rfl
      · exact ok.exclusive other old
    · rcases either other member with rfl | old
      · cases move with
        | bound generation epoch assigns starting same valid =>
          refine ⟨(ok.shaped row before).1, fun g bound => ?_⟩
          simp only [Option.mem_def, Option.some.injEq] at bound
          exact bound ▸ valid.1
        | committed alive assigned => exact ok.shaped row before
        | failed reason starting unused => exact ok.shaped row before
      · exact ok.shaped other old
    · rcases either other member with rfl | old
      · rw [move.identity.2]
        exact ok.asked row before
      · exact ok.asked other old
  | created start spec creates found alive identified starts sessions =>
    refine ⟨fun owner key => ?_, fun row member => ?_, fun row member => ?_, fun row member => ?_⟩
    · simpa only [Db.rowsOf, starts] using ok.unique owner key
    · rw [starts] at member
      rw [sessions]
      intro failed
      -- The start of the new session has not failed, so the failed row is another one.
      have other : row.sessionId ≠ start.sessionId := by
        intro same
        have here := Table.eq_of_key member (Table.mem_of_find? found) same
        exact alive (here ▸ failed)
      simpa [other] using ok.exclusive row member failed
    · exact ok.shaped row (starts ▸ member)
    · exact ok.asked row (starts ▸ member)
  | collected sid past collects starts sessions =>
    have kept : ∀ row ∈ db'.starts.rows, row ∈ db.starts.rows := by
      intro row member
      rcases starts with same | erased
      · exact same ▸ member
      · rw [erased] at member
        exact (List.mem_filter.mp member).1
    refine ⟨fun owner key => ?_, fun row member => ?_, fun row member => ?_, fun row member => ?_⟩
    · rcases starts with same | erased
      · simpa only [Db.rowsOf, same] using ok.unique owner key
      · refine le_trans ?_ (ok.unique owner key)
        rw [Db.rowsOf, Db.rowsOf, erased]
        exact (List.Sublist.filter _ List.filter_sublist).length_le
    · intro failed
      rw [sessions, Table.find?_erase]
      split
      · rfl
      · exact ok.exclusive row (kept row member) failed
    · exact ok.shaped row (kept row member)
    · exact ok.asked row (kept row member)

theorem LedgerOk.step (ok : LedgerOk db) (call : Call) : LedgerOk (machine.step db call).1 := by
  simp only [machine, settled]
  cases done : call.apply db with
  | ok db' => exact ok.keeps (Call.startsEffect done)
  | error raised => exact ok

theorem ledgerOk_after (calls : List Call) : LedgerOk (machine.after {} calls) :=
  machine.invariant_after LedgerOk (fun _ call ok => ok.step call) .empty calls

/-! ### The laws -/

/-- Takes nothing away: every call but the collector's. -/
def Call.collects : Call → Bool
  | .collectSession .. => true
  | _ => false

/-- A start that has succeeded or failed is there unchanged. -/
def SettledStay (db later : Db) : Prop :=
  ∀ row ∈ db.starts.rows, row.state ≠ .starting → row ∈ later.starts.rows

theorem settledStay_step (db : Db) (keeps : call.collects = false) :
    SettledStay db (machine.step db call).1 := by
  simp only [machine, settled]
  cases done : call.apply db with
  | error raised => exact fun row member _ => member
  | ok db' =>
    intro row member settledRow
    cases Call.startsEffect done with
    | kept starts sessions => exact starts ▸ member
    | created start spec creates found alive identified starts sessions => exact starts ▸ member
    | reserved request minted clock now reserves asked fresh inserted sessions =>
      exact (Table.mem_insert inserted).mpr (.inl member)
    | moved old new found move starts sessions =>
      have id := move.identity.1
      have held : db.starts.find? new.sessionId = some old := id ▸ found
      rw [starts]
      by_cases same : row.sessionId = new.sessionId
      · -- The row that moves is this one; a settled row moves to itself.
        have here : row = old :=
          Table.eq_of_key member (Table.mem_of_find? found) (same.trans id)
        by_contra gone
        have changed : new ≠ old := by
          intro eq
          exact gone ((Table.mem_update held).mpr (.inl (here.trans eq.symm)))
        exact settledRow (here ▸ move.starting_of_ne changed)
      · exact (Table.mem_update held).mpr (.inr ⟨member, same⟩)
    | collected sid past collects starts sessions => simp [collects, Call.collects] at keeps

theorem settledStay_after {calls : List Call} (keep : ∀ call ∈ calls, call.collects = false) :
    SettledStay db (machine.after db calls) := by
  induction calls generalizing db with
  | nil => exact fun row member _ => member
  | cons call rest ih =>
    intro row member settledRow
    have first := settledStay_step db (keep call (by simp)) row member settledRow
    exact ih (fun c later => keep c (List.mem_cons_of_mem _ later)) row first settledRow

/-- A key that has its row keeps exactly one while nothing is collected. -/
def KeysStay (db later : Db) : Prop :=
  ∀ owner key, (db.rowsOf owner key).length = 1 → (later.rowsOf owner key).length = 1

theorem keysStay_step (ok : LedgerOk db) (keeps : call.collects = false) :
    KeysStay db (machine.step db call).1 := by
  have after := ok.step call
  simp only [machine, settled] at after ⊢
  cases done : call.apply db with
  | error raised => exact fun owner key one => one
  | ok db' =>
    rw [done] at after
    intro owner key one
    refine le_antisymm (after.unique owner key) (one ▸ ?_)
    cases Call.startsEffect done with
    | kept starts sessions => rw [Db.rowsOf, Db.rowsOf, starts]
    | created start spec creates found alive identified starts sessions => rw [Db.rowsOf, Db.rowsOf, starts]
    | reserved request minted clock now reserves asked fresh inserted sessions =>
      rw [Db.rowsOf, Db.rowsOf, Table.rows_insert inserted, List.filter_append, List.length_append]
      omega
    | moved old new found move starts sessions =>
      exact (rowsOf_update move owner key starts found).ge
    | collected sid past collects starts sessions => simp [collects, Call.collects] at keeps

theorem keysStay_after (ok : LedgerOk db) {calls : List Call}
    (keep : ∀ call ∈ calls, call.collects = false) : KeysStay db (machine.after db calls) := by
  induction calls generalizing db with
  | nil => exact fun owner key one => one
  | cons call rest ih =>
    intro owner key one
    have first := keysStay_step ok (keep call (by simp)) owner key one
    exact ih (ok.step call) (fun c later => keep c (List.mem_cons_of_mem _ later)) owner key first

/-! ### Reserving a key again -/

theorem LedgerOk.toReservation (ok : LedgerOk db) {row : StartRow} (member : row ∈ db.starts.rows) :
    toReservation row = .ok row.reservation := by
  have shaped := ok.shaped row member
  simp only [Store.toReservation, bind_ok, require_ok, pure, Except.pure, exists_const]
  exact ⟨shaped.1, shaped.2, trivial⟩

/-- A taken key is answered from its row, without a write. -/
theorem LedgerOk.reserve_taken (ok : LedgerOk db) {row : StartRow} (member : row ∈ db.starts.rows)
    {request : Request} (owns : request.ownerId = row.ownerId)
    (keyed : request.idempotencyKey = row.idempotencyKey) (minted : SessionId) (now : ℚ) :
    db.reserve request minted (.finite now) = (do
      Db.checkRequest request
      return (← Db.replay row request, db)) := by
  have taken : db.startOf request.ownerId request.idempotencyKey = some row := by
    rw [owns, keyed]
    exact ok.startOf_eq member
  have refused : db.insertStart (Db.freshStart request minted now) = none := by
    simp only [Db.insertStart, Db.freshStart, taken]
  simp only [Db.reserve, timestamp, bind, Except.bind, refused, taken, demand]

/-- The same request returns the existing row. -/
theorem LedgerOk.reserve_same (ok : LedgerOk db) {row : StartRow} (member : row ∈ db.starts.rows)
    (minted : SessionId) (now : ℚ) :
    db.reserve row.request minted (.finite now) = .ok (row.reservation, db) := by
  have agrees : Db.replay row row.request = .ok row.reservation := by
    simp only [Db.replay, bind_ok, require_ok, exists_const]
    exact ⟨⟨rfl, rfl⟩, ok.toReservation member⟩
  rw [ok.reserve_taken member rfl rfl, ok.asked row member, agrees]
  rfl

/-- Another request is a conflict, unless it is malformed already. -/
theorem LedgerOk.reserve_other (ok : LedgerOk db) {row : StartRow} (member : row ∈ db.starts.rows)
    {request : Request} (owns : request.ownerId = row.ownerId)
    (keyed : request.idempotencyKey = row.idempotencyKey) (other : request ≠ row.request)
    (minted : SessionId) (now : ℚ) :
    ∃ raised, db.reserve request minted (.finite now) = .error raised ∧
      (Db.checkRequest request = .ok () → raised =
        .nelix ⟨.idempotencyConflict, "idempotency key was used for a different request"⟩) := by
  have differs : ¬ (row.requestFingerprint = request.requestFingerprint ∧
      row.orchestrationId = request.orchestrationId) := by
    rintro ⟨fingerprint, orchestration⟩
    apply other
    cases request
    simp_all [StartRow.request]
  have conflict : Db.replay row request = .error
      (.nelix ⟨.idempotencyConflict, "idempotency key was used for a different request"⟩) := by
    simp only [Db.replay, require, if_neg differs]
    rfl
  rw [ok.reserve_taken member owns keyed, conflict]
  cases checked : Db.checkRequest request with
  | ok u => exact ⟨_, rfl, fun _ => rfl⟩
  | error raised => exact ⟨raised, rfl, fun passes => by cases passes⟩

/-- A reservation that was accepted has its row. -/
theorem LedgerOk.reserved_row (ok : LedgerOk db) {request : Request} {minted : SessionId}
    {clock : Reading} {reservation : Reservation}
    (done : db.reserve request minted clock = .ok (reservation, db')) :
    (db'.rowsOf request.ownerId request.idempotencyKey).length = 1 := by
  have done' : (Call.reserve request minted clock).apply db = .ok db' := by
    simp [Call.apply, done, Except.map]
  have after : LedgerOk db' := ok.keeps (Call.startsEffect done')
  have found : ∃ row ∈ db'.starts.rows,
      row.ownerId = request.ownerId ∧ row.idempotencyKey = request.idempotencyKey := by
    simp only [Db.reserve, bind_ok] at done
    obtain ⟨_, -, now, -, done⟩ := done
    cases inserted : db.insertStart (Db.freshStart request minted now) with
    | none =>
      simp only [inserted, bind_ok, demand_ok, pure, Except.pure, Except.ok.injEq,
        Prod.mk.injEq] at done
      obtain ⟨row, taken, _, -, -, rfl⟩ := done
      have here := List.find?_some taken
      simp only [decide_eq_true_eq] at here
      exact ⟨row, List.mem_of_find?_eq_some taken, here⟩
    | some starts =>
      rw [inserted] at done
      simp only [pure, Except.pure, Except.ok.injEq, Prod.mk.injEq] at done
      obtain ⟨-, rfl⟩ := done
      unfold Db.insertStart at inserted
      split at inserted
      · cases inserted
      · exact ⟨_, (Table.mem_insert inserted).mpr (.inr rfl), rfl, rfl⟩
  obtain ⟨row, member, owns, keyed⟩ := found
  rw [← owns, ← keyed, after.rowsOf_eq member]
  rfl

/-- The laws of the ledger, in any database that calls have produced and over whatever calls come
later. Only the collector's call is left out of what stays. -/
theorem ledger_laws (calls later : List Call)
    (keep : ∀ call ∈ later, call.collects = false) :
    let db := machine.after {} calls
    -- One row for each owner and key, and a key that was reserved keeps its row.
    (∀ owner key, (db.rowsOf owner key).length ≤ 1) ∧
    (∀ request minted clock reservation db',
      db.reserve request minted clock = .ok (reservation, db') →
      ((machine.after db' later).rowsOf request.ownerId request.idempotencyKey).length = 1) ∧
    -- No failed start has a session.
    (∀ row ∈ db.starts.rows, row.state = .failed → db.sessions.find? row.sessionId = none) ∧
    -- Started and failed are absorbing, and the row keeps its reason.
    (∀ row ∈ db.starts.rows, row.state ≠ .starting → row ∈ (machine.after db later).starts.rows) ∧
    -- A key is taken for one request.
    (∀ row ∈ db.starts.rows, ∀ request minted now,
      request.ownerId = row.ownerId → request.idempotencyKey = row.idempotencyKey →
      (request = row.request →
        db.reserve request minted (.finite now) = .ok (row.reservation, db)) ∧
      (request ≠ row.request →
        ∃ raised, db.reserve request minted (.finite now) = .error raised ∧
          (Db.checkRequest request = .ok () → raised =
            .nelix ⟨.idempotencyConflict, "idempotency key was used for a different request"⟩))) := by
  intro db
  have ok : LedgerOk db := ledgerOk_after calls
  refine ⟨ok.unique, ?_, ?_, settledStay_after keep, ?_⟩
  · intro request minted clock reservation db' done
    have done' : (Call.reserve request minted clock).apply db = .ok db' := by
      simp [Call.apply, done, Except.map]
    have after : LedgerOk db' := ok.keeps (Call.startsEffect done')
    exact keysStay_after after keep _ _ (ok.reserved_row done)
  · intro row member failed
    simpa using ok.exclusive row member failed
  · intro row member request minted now owns keyed
    refine ⟨?_, fun other => ok.reserve_other member owns keyed other minted now⟩
    rintro rfl
    exact ok.reserve_same member minted now

/-! ### A start that is bound again -/

/-- One request, its session, and a receipt for it. -/
def sampleRequest : Request where
  idempotencyKey := "key-1"
  ownerId := "owner"
  orchestrationId := "o-00000000000000000000000000000001"
  requestFingerprint := "fingerprint"

def sampleId : SessionId := ⟨"s-00000000000000000000000000000001", by decide +kernel⟩

def sampleGeneration : String := "g-0000000000000000000000000000000a"

def firstEpoch : String := "g-000000000000000000000000000000e1"

def secondEpoch : String := "g-000000000000000000000000000000e2"

/-- The start is reserved, bound to the first epoch, created there and ended there. -/
def endedOnFirst : List Call :=
  [.reserve sampleRequest sampleId (.finite 1),
    .assignGeneration sampleId.value sampleGeneration firstEpoch,
    .createSession sampleId.value
      { state := "running", executor := "codex", task := "t", cwd := "/", model := none,
        createdAt := .finite 2 },
    .putTerminal sampleId.value
      { terminalKind := "done", summary := "", endedAt := .finite 3 } (.finite 3)]

/-- A started start is there after a late failure report and a retry of its request. -/
theorem ledger_laws_committed :
    (machine.after {} (endedOnFirst ++
        [.commit sampleId.value sampleGeneration firstEpoch])).starts.rows.length = 1 ∧
      ∀ row ∈ (machine.after {} (endedOnFirst ++
          [.commit sampleId.value sampleGeneration firstEpoch])).starts.rows,
        row.state ≠ .starting → row ∈ (machine.after (machine.after {} (endedOnFirst ++
          [.commit sampleId.value sampleGeneration firstEpoch]))
            [.fail sampleId.value "timeout",
              .reserve sampleRequest sampleId (.finite 9)]).starts.rows :=
  ⟨by decide +kernel, (ledger_laws _ _ (by decide)).2.2.2.1⟩

/-- The pair a session id is bound to. -/
def Db.bindingOf (db : Db) (sessionId : String) : Option (String × String) :=
  (db.findStart sessionId).bind fun row =>
    row.generationId.bind fun g => row.generationEpoch.map fun e => (g, e)

/-- The call binds a start anew: it names another epoch of the generation of a start that is still
starting. Only the generation is compared. -/
def Call.rebinds (db : Db) : Call → Bool
  | .assignGeneration sessionId generationId generationEpoch =>
    (db.findStart sessionId).any fun row =>
      row.state = .starting && row.generationId = some generationId &&
        row.generationEpoch ≠ some generationEpoch
  | _ => false

/-- The call reserves under this session id. Ids are minted fresh. -/
def Call.mints (sessionId : String) : Call → Bool
  | .reserve _ minted _ => minted.value = sessionId
  | _ => false

/-- What bears on one binding: nobody binds its start anew and its id is not minted again. -/
def Call.keepsBinding (sessionId : String) (db : Db) (call : Call) : Prop :=
  call.rebinds db = false ∧ call.mints sessionId = false

instance (sessionId : String) (db : Db) (call : Call) :
    Decidable (call.keepsBinding sessionId db) := by unfold Call.keepsBinding; infer_instance

/-- The start of a session names this pair, or it was collected. -/
def Bound (sessionId generationId generationEpoch : String) (db : Db) : Prop :=
  ∀ row, db.findStart sessionId = some row →
    row.generationId = some generationId ∧ row.generationEpoch = some generationEpoch

theorem bound_of_bindingOf {sessionId g e : String} (binding : db.bindingOf sessionId = some (g, e)) :
    Bound sessionId g e db := by
  intro row found
  simp only [Db.bindingOf, found, Option.bind_some, Option.bind_eq_some_iff, Option.map_eq_some_iff,
    Prod.mk.injEq] at binding
  obtain ⟨_, hasGeneration, _, hasEpoch, rfl, rfl⟩ := binding
  exact ⟨hasGeneration, hasEpoch⟩

theorem Bound.step {sessionId g e : String} (bound : Bound sessionId g e db)
    (keeps : call.keepsBinding sessionId db) :
    Bound sessionId g e (machine.step db call).1 := by
  simp only [machine, settled]
  cases done : call.apply db with
  | error raised => exact bound
  | ok db' =>
    intro row found
    rw [Db.findStart] at found
    cases Call.startsEffect done with
    | kept starts sessions => exact bound row (by rwa [Db.findStart, ← starts])
    | created start spec creates held alive identified starts sessions =>
      exact bound row (by rwa [Db.findStart, ← starts])
    | reserved request minted clock now reserves asked fresh inserted sessions =>
      have other : minted.value ≠ sessionId := by
        have unminted := keeps.2
        simpa [reserves, Call.mints] using unminted
      rw [Table.find?_insert inserted] at found
      refine bound row ?_
      simpa [Db.findStart, Keyed.key, Db.freshStart, other] using found
    | moved old new held move starts sessions =>
      have id := move.identity.1
      have here : db.starts.find? new.sessionId = some old := id ▸ held
      rw [starts, Table.find?_update] at found
      split at found
      · -- The start that moves is this one.
        rename_i same
        rw [show db.starts.find? sessionId = some old from same ▸ here] at found
        simp only [Option.map_some, Option.some.injEq] at found
        subst found
        have before := bound old (show db.starts.find? sessionId = some old from same ▸ here)
        cases move with
        | bound generation epoch assigns starting compared valid =>
          have still := keeps.1
          rw [before.1] at compared
          simp only [reduceCtorEq, Option.some.injEq, false_or] at compared
          subst compared
          simp only [assigns, Call.rebinds, held, Option.any_some, starting, before.1, before.2,
            decide_true, Bool.true_and, decide_eq_false_iff_not, not_not] at still
          exact ⟨rfl, still.symm⟩
        | committed alive assigned => exact before
        | failed reason starting unused => exact before
      · exact bound row found
    | collected sid past collects starts sessions =>
      rcases starts with same | erased
      · exact bound row (by rwa [Db.findStart, ← same])
      · rw [erased, Table.find?_erase] at found
        split at found
        · cases found
        · exact bound row found

/-- Along calls that keep a binding, everything derived from the start names the same pair. -/
theorem binding_kept (db : Db) (calls : List Call) (sessionId g e : String)
    (binding : db.bindingOf sessionId = some (g, e))
    (along : machine.Along (fun db call => call.keepsBinding sessionId db) db calls) :
    let later := machine.after db calls
    -- the route,
    (∀ route, later.getSessionGeneration sessionId = .ok route → route = (g, some e)) ∧
    -- the receipt of the session, and every epoch that lists it,
    (∀ owner record, later.getTerminal sessionId owner = .ok record →
      record.start.generationId = some g ∧ record.start.generationEpoch = some e) ∧
    (∀ epoch, ∀ record ∈ later.listTerminalForEpoch epoch,
      record.row.sessionId = sessionId → epoch = e) ∧
    -- and the work that is still open.
    (∀ epoch, ∀ start ∈ later.listStartsForEpoch epoch,
      start.sessionId = sessionId → epoch = e) := by
  intro later
  have bound : Bound sessionId g e later :=
    machine.invariant_along (Bound sessionId g e) (fun _ _ held keeps => held.step keeps)
      (bound_of_bindingOf binding) along
  refine ⟨?_, ?_, ?_, ?_⟩
  · intro route done
    simp only [Db.getSessionGeneration, bind_ok, require_ok, Db.requireStart_ok, demand_ok, pure,
      Except.pure, Except.ok.injEq, exists_const] at done
    obtain ⟨-, row, found, generation, hasGeneration, rfl⟩ := done
    obtain ⟨named, epoch⟩ := bound row found
    rw [hasGeneration, Option.some.injEq] at named
    rw [named, epoch]
  · intro owner record done
    simp only [Db.getTerminal, bind_ok, require_ok, demand_ok, pure, Except.pure,
      Except.ok.injEq, exists_const] at done
    obtain ⟨row, -, start, found, -, -, rfl⟩ := done
    exact bound start found
  · intro epoch record listed named
    rw [Db.listTerminalForEpoch, List.mem_insertionSort, Db.readTerminals, List.mem_filterMap]
      at listed
    obtain ⟨row, -, read⟩ := listed
    rw [Option.bind_eq_some_iff] at read
    obtain ⟨start, found, read⟩ := read
    split at read
    · rename_i wanted
      simp only [Option.some.injEq] at read
      subst read
      simp only [Bool.and_eq_true, decide_eq_true_eq] at wanted
      have here := (bound start (named ▸ found)).2
      rw [wanted.1, Option.some.injEq] at here
      exact here
    · cases read
  · intro epoch start listed named
    simp only [Db.listStartsForEpoch, List.mem_filter, Bool.and_eq_true, decide_eq_true_eq]
      at listed
    have found : later.findStart sessionId = some start := named ▸ Table.find?_of_mem listed.1
    have here := (bound start found).2
    rw [listed.2.1.1, Option.some.injEq] at here
    exact here

theorem binding_kept_ended :
    (machine.after {} (endedOnFirst.take 2)).bindingOf sampleId.value =
        some (sampleGeneration, firstEpoch) ∧
      ∀ record ∈ (machine.after (machine.after {} (endedOnFirst.take 2))
          (endedOnFirst.drop 2)).listTerminalForEpoch secondEpoch,
        record.row.sessionId = sampleId.value → secondEpoch = firstEpoch :=
  ⟨by decide +kernel,
    (binding_kept _ _ sampleId.value sampleGeneration firstEpoch (by decide +kernel)
      (by decide +kernel)).2.2.1 secondEpoch⟩

/-- A second binding names another epoch, and the receipt follows it there. -/
theorem rebound_receipt :
    let db := machine.after {} endedOnFirst
    let later := machine.after db
      [.assignGeneration sampleId.value sampleGeneration secondEpoch]
    db.bindingOf sampleId.value = some (sampleGeneration, firstEpoch) ∧
      later.bindingOf sampleId.value = some (sampleGeneration, secondEpoch) ∧
      (db.listTerminalForEpoch firstEpoch).length = 1 ∧
      later.listTerminalForEpoch firstEpoch = [] ∧
      (later.listTerminalForEpoch secondEpoch).length = 1 := by
  decide +kernel

end Nelix.Store
