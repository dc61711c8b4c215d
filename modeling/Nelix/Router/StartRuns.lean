import Nelix.Core.Pool
import Nelix.Router.StartPath
import Nelix.Store.LedgerRuns

/-!
# Starts under way

Any number of start and restart requests at once over one ledger. `Traffic` remembers what was
forwarded and what became of it; each request relies on nobody else touching the start it
reserved.

## Main results

`starts_forwarded_once`: no owner and key ever has two forwards; and where the daemons answer every
start with a success or an error, a start is recorded failed only when it was never sent or was
rejected.
-/
namespace Nelix.Store

open Contracts Core

variable {db db' : Db}

/-- The start of this session is recorded failed. -/
def Db.Failed (db : Db) (sessionId : String) : Prop :=
  ∃ row, db.findStart sessionId = some row ∧ row.state = .failed

/-- The start is there as before, and failed as before. -/
structure Spares (db db' : Db) (sessionId : String) : Prop where
  there : (db'.findStart sessionId).isSome = (db.findStart sessionId).isSome
  failed : db'.Failed sessionId ↔ db.Failed sessionId

theorem Spares.of_starts (same : db'.starts = db.starts) (sid : String) : Spares db db' sid :=
  ⟨by rw [Db.findStart, same]; rfl, by rw [Db.Failed, Db.findStart, same]; rfl⟩

/-- A write of one row spares the others, and itself where it changes no verdict. -/
theorem spares_update {row : StartRow} (found : db.findStart row.sessionId = some row)
    (row' : StartRow) (key : row'.sessionId = row.sessionId) (starts : db'.starts = db.starts.update row')
    {sid : String}
    (same : sid = row.sessionId → (row'.state = .failed ↔ row.state = .failed)) :
    Spares db db' sid := by
  by_cases mine : sid = row.sessionId
  · subst mine
    have held : db.starts.find? row'.sessionId = some row := key ▸ found
    have now : db'.findStart row.sessionId = some row' := by
      rw [Db.findStart, starts, ← key]
      exact Table.find?_update_self held
    exact ⟨by rw [now, found]; rfl, by simp [Db.Failed, now, found, same rfl]⟩
  · have apart : Keyed.key row' ≠ sid := fun eq => mine (eq.symm.trans key)
    have kept : db'.findStart sid = db.findStart sid := by
      rw [Db.findStart, starts]
      exact Table.find?_update_ne apart
    exact ⟨by rw [kept], by simp [Db.Failed, kept]⟩

/-- A reservation writes a starting row under a new session, or nothing. -/
theorem reserve_cases {request : Request} {minted : SessionId} {clock : Reading}
    {res : Reservation} (done : db.reserve request minted clock = .ok (res, db')) :
    (res.replay = true ∧ db' = db) ∨
      (res.replay = false ∧ db.findStart res.sessionId = none ∧
        ∃ row : StartRow, row.sessionId = res.sessionId ∧ row.state = .starting ∧
          db.starts.insert row = some db'.starts) := by
  simp only [Db.reserve, bind_ok] at done
  obtain ⟨_, -, now, -, done⟩ := done
  cases inserted : db.insertStart (Db.freshStart request minted now) with
  | none =>
    simp only [inserted, bind_ok, demand_ok, pure, Except.pure, Except.ok.injEq,
      Prod.mk.injEq] at done
    obtain ⟨row, -, answer, replays, rfl, rfl⟩ := done
    simp only [Db.replay, toReservation, bind_ok, require_ok, pure, Except.pure,
      Except.ok.injEq, exists_const] at replays
    obtain ⟨-, -, -, rfl⟩ := replays
    exact .inl ⟨rfl, rfl⟩
  | some starts =>
    simp only [inserted, pure, Except.pure, Except.ok.injEq, Prod.mk.injEq] at done
    obtain ⟨rfl, rfl⟩ := done
    unfold Db.insertStart at inserted
    split at inserted
    · cases inserted
    · exact .inr ⟨rfl, Table.fresh_of_insert inserted, _, rfl, rfl, inserted⟩

theorem spares_insert {row : StartRow} (fresh : db.starts.insert row = some db'.starts)
    {sid : String} (other : sid ≠ row.sessionId) : Spares db db' sid := by
  have apart : Keyed.key row ≠ sid := fun eq => other eq.symm
  have kept : db'.findStart sid = db.findStart sid := by
    rw [Db.findStart, Table.find?_insert fresh, if_neg apart]
    rfl
  exact ⟨by rw [kept], by simp [Db.Failed, kept]⟩

theorem findStart_insert {row : StartRow} (fresh : db.starts.insert row = some db'.starts) :
    db'.findStart row.sessionId = some row := by
  rw [Db.findStart, Table.find?_insert fresh]
  exact if_pos rfl

theorem assignGeneration_spares {sid g e : String}
    (done : db.assignGeneration sid g e = .ok db') (s : String) : Spares db db' s := by
  simp only [Db.assignGeneration, bind_ok, require_ok, Db.requireStart_ok, pure, Except.pure,
    Except.ok.injEq, exists_const] at done
  obtain ⟨_, -, _, -, row, found, -, -, rfl⟩ := done
  have named := Db.sessionId_of_findStart found
  subst named
  exact spares_update found
    { row with generationId := some g, generationEpoch := some e } rfl rfl fun _ => Iff.rfl

theorem commit_spares {sid g e : String} (done : db.commit sid g e = .ok db') (s : String) :
    Spares db db' s := by
  simp only [Db.commit, bind_ok, require_ok, Db.requireStart_ok, pure, Except.pure,
    Except.ok.injEq, exists_const] at done
  obtain ⟨_, -, _, -, row, found, alive, -, -, rfl⟩ := done
  have named := Db.sessionId_of_findStart found
  subst named
  refine spares_update found { row with state := .started } rfl rfl fun _ => ?_
  exact ⟨fun started => (by cases started), fun failed => absurd failed alive⟩

theorem fail_spares {sid reason : String} (done : db.fail sid reason = .ok db') {s : String}
    (other : s ≠ sid) : Spares db db' s := by
  simp only [Db.fail, bind_ok, require_ok, Db.requireStart_ok, exists_const] at done
  obtain ⟨_, -, row, found, -, done⟩ := done
  have named := Db.sessionId_of_findStart found
  subst named
  split at done
  · simp only [bind_ok, require_ok, pure, Except.pure, Except.ok.injEq, exists_const] at done
    exact .of_starts (by rw [← done.2]) s
  · simp only [bind_ok, require_ok, pure, Except.pure, Except.ok.injEq, exists_const] at done
    obtain ⟨-, rfl⟩ := done
    exact spares_update found { row with state := .failed, reason := some reason } rfl rfl
      fun same => absurd same other

theorem fail_there {sid reason : String} (done : db.fail sid reason = .ok db') (s : String) :
    (db'.findStart s).isSome = (db.findStart s).isSome := by
  by_cases same : s = sid
  · subst same
    simp only [Db.fail, bind_ok, require_ok, Db.requireStart_ok, exists_const] at done
    obtain ⟨_, -, row, found, -, done⟩ := done
    split at done
    · simp only [bind_ok, require_ok, pure, Except.pure, Except.ok.injEq, exists_const] at done
      rw [← done.2]
    · simp only [bind_ok, require_ok, pure, Except.pure, Except.ok.injEq, exists_const] at done
      obtain ⟨-, rfl⟩ := done
      rw [Db.findStart, Table.find?_update]
      split <;> simp [Db.findStart]
  · exact (fail_spares done same).there

end Nelix.Store

namespace Nelix.Router

open Contracts Core Store

/-! ### The traffic -/

/-- What became of a forward. -/
inductive Fate
  | unsent (message : String)
  | pending
  | lost (message : String)
  | answered (status : ℕ) (body : List UInt8)

structure Forward where
  thread : ℕ
  payload : Payload
  fate : Fate

/-- The ledger, every forward that was attempted, and the session each request reserved afresh. -/
structure Traffic where
  db : Db
  forwards : List Forward := []
  held : ℕ → Option String := fun _ => none

/-- The reply reports the success of what was asked. -/
def Payload.accepted : Payload → Json → Bool
  | .start _ _ _ _ _ sid, reply => reply.hasText "status" "started" && reply.hasText "session_id" sid
  | .restart _ _ sid _, reply =>
    reply.hasText "status" "restarted" && reply.hasText "session_id" sid

/-- The reply is an explicit no. -/
def rejects (reply : Json) : Bool := (reply.get? "error").any Json.truthy

/-- The daemon definitely did not run the start: it was not sent, or it was rejected. -/
def Forward.Refused (lib : Library) (f : Forward) : Prop :=
  match f.fate with
  | .unsent _ => True
  | .answered _ body => ∃ reply, lib.loads (readOr body) = .ok reply ∧
      f.payload.accepted reply = false ∧ rejects reply = true
  | .pending | .lost _ => False

/-- The forwards for the start of this owner and key. -/
def Traffic.forwardsOf (w : Traffic) (ownerId idempotencyKey : String) : List Forward :=
  w.forwards.filter fun f => (w.db.findStart f.payload.assigned).any fun row =>
    row.ownerId = ownerId ∧ row.idempotencyKey = idempotencyKey

/-- The forwards of one request. -/
def Traffic.own (w : Traffic) (i : ℕ) : List Forward := w.forwards.filter (·.thread = i)

/-- What a reply makes of a forward that waits for it. -/
def Forward.settle (i : ℕ) (answer : Except String (ℕ × List UInt8)) (f : Forward) : Forward :=
  match f.fate with
  | .pending =>
    if f.thread = i then
      { f with fate := match answer with
          | .error message => .lost message
          | .ok (status, body) => .answered status body }
    else f
  | _ => f

def sentFate : Except String Unit → Fate
  | .error message => .unsent message
  | .ok () => .pending

/-- What an effect of request `i` may answer and leave. A transaction happens or is refused, a
reply is one that `admits` lets through. -/
inductive Acts (lib : Library) (admits : Payload → Json → Prop) (i : ℕ) :
    (e : StartEffect) → Traffic → e.Answer → Traffic → Prop
  | reserved {request : Request} {minted : SessionId} {clock : Reading} {w : Traffic}
      {res : Reservation} {db' : Db}
      (done : w.db.reserve request minted clock = .ok (res, db')) :
      Acts lib admits i (.reserve request) w (.ok res)
        { w with
          db := db'
          held := if res.replay then w.held else Function.update w.held i (some res.sessionId) }
  | unreserved {request : Request} {w : Traffic} (raised : Raised) :
      Acts lib admits i (.reserve request) w (.error raised) w
  | active {w : Traffic} (answer : Outcome GenerationHandle) :
      Acts lib admits i .active w answer w
  | assigned {sid g e : String} {w : Traffic} {db' : Db}
      (done : w.db.assignGeneration sid g e = .ok db') :
      Acts lib admits i (.assignGeneration sid g e) w (.ok ()) { w with db := db' }
  | unassigned {sid g e : String} {w : Traffic} (raised : Raised) :
      Acts lib admits i (.assignGeneration sid g e) w (.error raised) w
  | committed {sid g e : String} {w : Traffic} {db' : Db}
      (done : w.db.commit sid g e = .ok db') :
      Acts lib admits i (.commit sid g e) w (.ok ()) { w with db := db' }
  | uncommitted {sid g e : String} {w : Traffic} (raised : Raised) :
      Acts lib admits i (.commit sid g e) w (.error raised) w
  | failed {sid reason : String} {w : Traffic} {db' : Db}
      (done : w.db.fail sid reason = .ok db') :
      Acts lib admits i (.fail sid reason) w (.ok ()) { w with db := db' }
  | unfailed {sid reason : String} {w : Traffic} (raised : Raised) :
      Acts lib admits i (.fail sid reason) w (.error raised) w
  | sent {transport : Option String} {payload : Payload} {w : Traffic}
      (answer : Except String Unit) :
      Acts lib admits i (.request transport payload) w answer
        { w with forwards := w.forwards ++ [⟨i, payload, sentFate answer⟩] }
  | received {w : Traffic} (answer : Except String (ℕ × List UInt8))
      (admitted : ∀ status body reply, answer = .ok (status, body) →
        lib.loads (readOr body) = .ok reply → ∀ f ∈ w.own i, admits f.payload reply) :
      Acts lib admits i .response w answer
        { w with forwards := w.forwards.map (Forward.settle i answer) }

/-- What a request relies on: its start and its forward are its own. -/
structure Relies (i : ℕ) (w w' : Traffic) : Prop where
  held : w'.held i = w.held i
  own : w'.own i = w.own i
  spared : ∀ sid, w.held i = some sid → (w'.db.Failed sid ↔ w.db.Failed sid)

def traffic (lib : Library) (admits : Payload → Json → Prop) (i : ℕ) :
    Setting StartEffect StartEffect.Answer Traffic where
  rely := Relies i
  act := Acts lib admits i
  refl _ := ⟨rfl, rfl, fun _ _ => Iff.rfl⟩
  trans first second :=
    ⟨second.held.trans first.held, second.own.trans first.own, fun sid held =>
      (second.spared sid (first.held.trans held)).trans (first.spared sid held)⟩

/-- The requests, and everybody else's writes, which leave the starts alone. -/
def startCrew (lib : Library) (admits : Payload → Json → Prop) :
    Crew ℕ StartEffect StartEffect.Answer Raised (ℕ × Json) Traffic where
  setting := traffic lib admits
  aside w w' := ∃ (call : Call) (db' : Db), call.apply w.db = .ok db' ∧
    db'.starts = w.db.starts ∧ w' = { w with db := db' }
  enters _ p := ∃ body, p = StartPath.handle lib body ∨ p = RestartPath.handle lib body

/-! ### What every step keeps -/

variable {lib : Library} {admits : Payload → Json → Prop} {verdict : Forward → Prop}
  {w w' : Traffic} {i j : ℕ}

/-- What a request may do where it stands; a start is failed only over a `verdict` on its
forward. -/
def Permits (verdict : Forward → Prop) (i : ℕ) : StartEffect → Traffic → Prop
  | .reserve _, w => w.held i = none ∧ w.own i = []
  | .fail sid _, w => w.held i = some sid ∧ ∀ f ∈ w.own i, verdict f
  | .request _ payload, w =>
    w.held i = some payload.assigned ∧ w.own i = [] ∧ ¬ w.db.Failed payload.assigned
  | .response, w => ∀ sid, w.held i = some sid → ¬ w.db.Failed sid
  | _, _ => True

/-- What holds of the traffic in every run. -/
structure Orderly (verdict : Forward → Prop) (w : Traffic) : Prop where
  ledger : LedgerOk w.db
  reserved : ∀ i sid, w.held i = some sid → (w.db.findStart sid).isSome = true
  apart : ∀ i j sid, w.held i = some sid → w.held j = some sid → i = j
  assigned : ∀ f ∈ w.forwards, w.held f.thread = some f.payload.assigned
  once : (w.forwards.map Forward.thread).Nodup
  justified : ∀ f ∈ w.forwards, w.db.Failed f.payload.assigned → verdict f

theorem Forward.settle_fixed (i : ℕ) (answer : Except String (ℕ × List UInt8)) (f : Forward) :
    (f.settle i answer).thread = f.thread ∧ (f.settle i answer).payload = f.payload := by
  unfold Forward.settle
  split
  · split <;> exact ⟨rfl, rfl⟩
  · exact ⟨rfl, rfl⟩

theorem Forward.settle_other {answer : Except String (ℕ × List UInt8)} {f : Forward}
    (other : f.thread ≠ i) : f.settle i answer = f := by
  unfold Forward.settle
  split
  · rw [if_neg other]
  · rfl

theorem own_settle (w : Traffic) (i j : ℕ) (answer : Except String (ℕ × List UInt8)) :
    (w.forwards.map (Forward.settle i answer)).filter (·.thread = j) =
      (w.own j).map (Forward.settle i answer) := by
  rw [Traffic.own, List.filter_map]
  congr 2
  funext f
  simp only [Function.comp_apply, (f.settle_fixed i answer).1]

theorem own_settle_other (other : j ≠ i) (answer : Except String (ℕ × List UInt8)) :
    (w.own j).map (Forward.settle i answer) = w.own j := by
  calc (w.own j).map (Forward.settle i answer)
      = (w.own j).map id := by
        refine List.map_congr_left fun f member => Forward.settle_other fun mine => other ?_
        exact (of_decide_eq_true (List.mem_filter.mp member).2).symm.trans mine
    _ = w.own j := List.map_id _

theorem own_sent (w : Traffic) (f : Forward) (j : ℕ) :
    (w.forwards ++ [f]).filter (·.thread = j) =
      w.own j ++ if f.thread = j then [f] else [] := by
  rw [List.filter_append, Traffic.own]
  by_cases mine : f.thread = j <;> simp [mine]

theorem mem_own {f : Forward} (member : f ∈ w.forwards) : f ∈ w.own f.thread :=
  List.mem_filter.mpr ⟨member, by simp⟩

theorem Acts.ledger {e : StartEffect} {r : e.Answer} (ok : LedgerOk w.db)
    (acts : Acts lib admits i e w r w') : LedgerOk w'.db := by
  cases acts with
  | @reserved request minted clock _ res db' done =>
    have call : (Call.reserve request minted clock).apply w.db = .ok db' := by
      simp [Call.apply, done, Except.map]
    exact ok.keeps (Call.startsEffect call)
  | @assigned sid g e _ db' done =>
    have call : (Call.assignGeneration sid g e).apply w.db = .ok db' := done
    exact ok.keeps (Call.startsEffect call)
  | @committed sid g e _ db' done =>
    have call : (Call.commit sid g e).apply w.db = .ok db' := done
    exact ok.keeps (Call.startsEffect call)
  | @failed sid reason _ db' done =>
    have call : (Call.fail sid reason).apply w.db = .ok db' := done
    exact ok.keeps (Call.startsEffect call)
  | _ => exact ok

/-- A session that somebody else holds is spared. -/
theorem Acts.spares {e : StartEffect} {r : e.Answer} (orderly : Orderly verdict w)
    (permits : Permits verdict i e w) (acts : Acts lib admits i e w r w') {sid : String}
    (held : w.held j = some sid) (other : j ≠ i) : Store.Spares w.db w'.db sid := by
  cases acts with
  | @reserved request minted clock _ res db' done =>
    rcases reserve_cases done with ⟨-, rfl⟩ | ⟨-, fresh, row, named, -, inserted⟩
    · exact .of_starts rfl sid
    · refine spares_insert inserted fun same => ?_
      have there := orderly.reserved j sid held
      rw [same, named, fresh] at there
      cases there
  | assigned done => exact assignGeneration_spares done sid
  | committed done => exact commit_spares done sid
  | failed done =>
    refine fail_spares done fun same => other ?_
    exact orderly.apart j i sid held (same ▸ permits.1)
  | _ => exact .of_starts rfl sid

/-- No request disturbs another one. -/
theorem Acts.relies {e : StartEffect} {r : e.Answer} (orderly : Orderly verdict w)
    (permits : Permits verdict i e w) (acts : Acts lib admits i e w r w') (other : j ≠ i) :
    Relies j w w' := by
  have spared : ∀ sid, w.held j = some sid → (w'.db.Failed sid ↔ w.db.Failed sid) :=
    fun sid held => (acts.spares orderly permits held other).failed
  refine ⟨?_, ?_, spared⟩
  · cases acts with
    | reserved done =>
      dsimp only
      split
      · rfl
      · exact Function.update_of_ne other _ _
    | _ => rfl
  · cases acts with
    | sent answer =>
      have mine : ¬ i = j := fun same => other same.symm
      rw [Traffic.own, own_sent, if_neg mine, List.append_nil]
    | received answer admitted => rw [Traffic.own, own_settle, own_settle_other other]
    | _ => rfl

/-- A reservation makes a new session the request's own, or changes nothing. -/
theorem Orderly.reserve {request : Request} {minted : SessionId} {clock : Reading}
    {res : Reservation} {db' : Db} (orderly : Orderly verdict w) (idle : w.own i = [])
    (done : w.db.reserve request minted clock = .ok (res, db'))
    (ledger : LedgerOk db') :
    Orderly verdict { w with
      db := db'
      held := if res.replay then w.held else Function.update w.held i (some res.sessionId) } := by
  rcases reserve_cases done with ⟨replays, rfl⟩ | ⟨fresh, absent, row, named, starting, inserted⟩
  · simpa only [replays, if_true] using orderly
  · have other : ∀ k sid, w.held k = some sid → sid ≠ row.sessionId := by
      intro k sid held same
      have there := orderly.reserved k sid held
      rw [same, named, absent] at there
      cases there
    simp only [fresh, Bool.false_eq_true, if_false, ← named]
    refine ⟨ledger, fun k sid held => ?_, fun k l sid => ?_, fun f member => ?_, orderly.once,
      fun f member failed => ?_⟩
    · by_cases mine : k = i
      · subst mine
        obtain rfl : row.sessionId = sid := by simpa using held
        exact findStart_insert inserted ▸ rfl
      · simp only [Function.update_of_ne mine] at held
        exact (spares_insert inserted (other k sid held)).there.trans (orderly.reserved k sid held)
    · intro left right
      by_cases mine : k = i <;> by_cases mine' : l = i
      · rw [mine, mine']
      · simp only [mine, Function.update_self, Function.update_of_ne mine'] at left right
        exact absurd (Option.some.inj left).symm (other l sid right)
      · simp only [mine', Function.update_self, Function.update_of_ne mine] at left right
        exact absurd (Option.some.inj right).symm (other k sid left)
      · simp only [Function.update_of_ne mine, Function.update_of_ne mine'] at left right
        exact orderly.apart k l sid left right
    · have apart : f.thread ≠ i := by
        intro mine
        have listed : f ∈ w.own f.thread := mem_own member
        rw [mine, idle] at listed
        cases listed
      simpa only [Function.update_of_ne apart] using orderly.assigned f member
    · have held := orderly.assigned f member
      exact orderly.justified f member
        ((spares_insert inserted (other _ _ held)).failed.mp failed)

/-- A write to the ledger after which every failed start has its verdict. -/
theorem Orderly.write {db' : Db} (orderly : Orderly verdict w) (ledger : LedgerOk db')
    (there : ∀ sid, (db'.findStart sid).isSome = (w.db.findStart sid).isSome)
    (judged : ∀ f ∈ w.forwards, db'.Failed f.payload.assigned →
      w.db.Failed f.payload.assigned ∨ verdict f) : Orderly verdict { w with db := db' } where
  ledger := ledger
  reserved k sid held := (there sid).trans (orderly.reserved k sid held)
  apart := orderly.apart
  assigned := orderly.assigned
  once := orderly.once
  justified f member failed := (judged f member failed).elim (orderly.justified f member) id

theorem Acts.keeps {e : StartEffect} {r : e.Answer} (orderly : Orderly verdict w)
    (permits : Permits verdict i e w) (acts : Acts lib admits i e w r w') :
    Orderly verdict w' := by
  have ledger := acts.ledger orderly.ledger
  cases acts with
  | reserved done => exact orderly.reserve permits.2 done ledger
  | assigned done =>
    have spared := assignGeneration_spares done
    exact orderly.write ledger (fun sid => (spared sid).there)
      fun f _ failed => .inl ((spared _).failed.mp failed)
  | committed done =>
    have spared := commit_spares done
    exact orderly.write ledger (fun sid => (spared sid).there)
      fun f _ failed => .inl ((spared _).failed.mp failed)
  | @failed sid reason _ db' done =>
    refine orderly.write ledger (fail_there done) fun f member failed => ?_
    by_cases mine : f.payload.assigned = sid
    · -- The failed start is the request's own, and so is every forward of it.
      have held := orderly.assigned f member
      have same := orderly.apart _ _ _ held (mine ▸ permits.1)
      exact .inr (permits.2 f (same ▸ mem_own member))
    · exact .inl ((fail_spares done mine).failed.mp failed)
  | @sent transport payload _ answer =>
    have idle : ∀ f ∈ w.forwards, f.thread ≠ i := by
      intro f member mine
      have listed := mem_own member
      rw [mine, permits.2.1] at listed
      cases listed
    refine ⟨ledger, orderly.reserved, orderly.apart, fun f member => ?_, ?_,
      fun f member failed => ?_⟩
    · rcases List.mem_append.mp member with old | new
      · exact orderly.assigned f old
      · rw [List.mem_singleton.mp new]
        exact permits.1
    · rw [List.map_append, List.nodup_append]
      refine ⟨orderly.once, List.nodup_singleton _, ?_⟩
      rintro _ old _ new rfl
      obtain ⟨f, member, thread⟩ := List.mem_map.mp old
      exact idle f member (thread.trans (by simpa using new))
    · rcases List.mem_append.mp member with old | new
      · exact orderly.justified f old failed
      · rw [List.mem_singleton.mp new] at failed
        exact absurd failed permits.2.2
  | received answer admitted =>
    refine ⟨ledger, orderly.reserved, orderly.apart, fun f member => ?_, ?_,
      fun f member failed => ?_⟩
    · obtain ⟨old, before, rfl⟩ := List.mem_map.mp member
      rw [(old.settle_fixed i answer).1, (old.settle_fixed i answer).2]
      exact orderly.assigned old before
    · have threads : (w.forwards.map (Forward.settle i answer)).map Forward.thread =
          w.forwards.map Forward.thread := by
        rw [List.map_map]
        exact List.map_congr_left fun f _ => (f.settle_fixed i answer).1
      exact threads ▸ orderly.once
    · obtain ⟨old, before, rfl⟩ := List.mem_map.mp member
      rw [(old.settle_fixed i answer).2] at failed
      by_cases mine : old.thread = i
      · exact absurd failed (permits _ (mine ▸ orderly.assigned old before))
      · rw [Forward.settle_other mine]
        exact orderly.justified old before failed
  | _ => exact orderly

/-! ### Each request is safe -/

/-- What the verdicts have to cover: a forward that was not sent, and a reply that is let through
and reports no success. -/
structure Judges (lib : Library) (admits : Payload → Json → Prop) (verdict : Forward → Prop) :
    Prop where
  unsent : ∀ f message, f.fate = .unsent message → verdict f
  refused : ∀ f status body reply, f.fate = .answered status body →
    lib.loads (readOr body) = .ok reply → admits f.payload reply →
    f.payload.accepted reply = false → verdict f

/-- The request holds a start that it has not forwarded. -/
structure Holding (i : ℕ) (sid : String) (w : Traffic) : Prop where
  held : w.held i = some sid
  own : w.own i = []
  unfailed : ¬ w.db.Failed sid

/-- The request has sent its forward and waits for the reply. -/
structure Sent (i : ℕ) (payload : Payload) (w : Traffic) : Prop where
  held : w.held i = some payload.assigned
  own : w.own i = [⟨i, payload, .pending⟩]
  unfailed : ¬ w.db.Failed payload.assigned

/-- The request may record its start failed. -/
def MayFail (verdict : Forward → Prop) (i : ℕ) (sid : String) (w : Traffic) : Prop :=
  w.held i = some sid ∧ ∀ f ∈ w.own i, verdict f

theorem Holding.later {sid : String} (fresh : Holding i sid w) (moves : Relies i w w') :
    Holding i sid w' where
  held := moves.held.trans fresh.held
  own := moves.own.trans fresh.own
  unfailed failed := fresh.unfailed ((moves.spared sid fresh.held).mp failed)

theorem Sent.later {payload : Payload} (sent : Sent i payload w) (moves : Relies i w w') :
    Sent i payload w' where
  held := moves.held.trans sent.held
  own := moves.own.trans sent.own
  unfailed failed := sent.unfailed ((moves.spared _ sent.held).mp failed)

theorem MayFail.later {sid : String} (may : MayFail verdict i sid w) (moves : Relies i w w') :
    MayFail verdict i sid w' :=
  ⟨moves.held.trans may.1, fun f member => may.2 f (moves.own ▸ member)⟩

theorem Holding.mayFail {sid : String} (fresh : Holding i sid w) : MayFail verdict i sid w :=
  ⟨fresh.held, fun f member => by rw [fresh.own] at member; cases member⟩

/-- How a request goes on when all is well, with nothing to show of its end. -/
abbrev Goes (lib : Library) (admits : Payload → Json → Prop) (verdict : Forward → Prop) (i : ℕ)
    {α : Type} (p : StartRoutine α) (w : Traffic) : Prop :=
  (traffic lib admits i).Safe (Permits verdict i) (fun _ _ => True) p w

theorem goes_failStart {sid : String} (reason fallback : String) (may : MayFail verdict i sid w) :
    Goes lib admits verdict i (failStart sid reason fallback) w := by
  intro w' moves
  refine ⟨may.later moves, fun answer w'' _ => ?_⟩
  match answer with
  | .ok () => exact fun _ _ => trivial
  | .error (.nelix e) => exact fun _ _ => trivial
  | .error .typeError | .error .attributeError | .error .valueError | .error .overflowError
  | .error (.runtimeError _) => exact fun _ _ => trivial

/-- The record of the failure, and then the exception. -/
theorem safe_failed {α : Type} {sid : String} {post : Except Raised α → Traffic → Prop}
    (reason fallback : String) (x : Raised) (may : MayFail verdict i sid w)
    (fails : ∀ y w, post (.error y) w) :
    (traffic lib admits i).Safe (Permits verdict i) post
      (do failStart sid reason fallback; (.raise x : StartRoutine α)) w := by
  refine Setting.Safe.bind ((goes_failStart reason fallback may).mono fun answer w' _ => ?_)
  cases answer with
  | ok _ => exact fun w'' _ => fails x w''
  | error y => exact fails y w'

/-- Where the body leaves the start fresh, a start that does not fail is fresh. -/
theorem safe_failingStart {α : Type} {sid fallback : String} {reason : NelixError → String}
    {body : StartRoutine α}
    (safe : (traffic lib admits i).Safe (Permits verdict i) (fun _ => Holding i sid) body w) :
    (traffic lib admits i).Safe (Permits verdict i)
      (fun r w => ∀ a, r = .ok a → Holding i sid w) (failingStart sid fallback reason body) w := by
  refine Setting.Safe.rescue (safe.mono fun r w fresh => ?_)
  match r with
  | .ok a => exact fun _ _ => fresh
  | .error (.nelix e) =>
    exact safe_failed (reason e) fallback (.nelix e) fresh.mayFail fun _ _ _ ends => by cases ends
  | .error .typeError | .error .attributeError | .error .valueError | .error .overflowError
  | .error (.runtimeError _) => exact fun _ _ _ ends => by cases ends

theorem safe_active {sid : String} (fresh : Holding i sid w) :
    (traffic lib admits i).Safe (Permits verdict i) (fun _ => Holding i sid)
      StartRoutine.active w := by
  intro w' moves
  refine ⟨trivial, fun answer w'' acts => ?_⟩
  cases acts
  exact fun w3 moves' => (fresh.later moves).later moves'

theorem safe_assignGeneration {sid : String} (gen : GenerationHandle) (fresh : Holding i sid w) :
    (traffic lib admits i).Safe (Permits verdict i) (fun _ => Holding i sid)
      (StartRoutine.assignGeneration sid gen) w := by
  intro w' moves
  have here := fresh.later moves
  refine ⟨trivial, fun answer w'' acts w3 moves' => Holding.later ?_ moves'⟩
  cases acts with
  | unassigned raised => exact here
  | assigned done =>
    exact ⟨here.held, here.own, fun failed =>
      here.unfailed ((assignGeneration_spares done sid).failed.mp failed)⟩

theorem goes_driveFresh {α : Type} {sid fallback : String}
    {forward : GenerationHandle → StartRoutine α} (fresh : Holding i sid w)
    (goes : ∀ gen w, Holding i sid w → Goes lib admits verdict i (forward gen) w) :
    Goes lib admits verdict i (driveFresh sid fallback forward) w := by
  refine Setting.Safe.bind ((safe_failingStart (safe_active fresh)).mono fun r w fresh => ?_)
  cases r with
  | error x => trivial
  | ok gen =>
    refine Setting.Safe.bind ((safe_failingStart (safe_assignGeneration gen (fresh gen rfl))).mono
      fun r w fresh => ?_)
    cases r with
    | error x => trivial
    | ok bound => exact goes gen w (fresh bound rfl)

/-- What the phase-split forward leaves: no verdict only where the outcome is ambiguous. -/
def Split (verdict : Forward → Prop) (i : ℕ) (payload : Payload) :
    Except Raised (Except ForwardError (ℕ × Json)) → Traffic → Prop
  | .ok (.error (.connect _)), w => MayFail verdict i payload.assigned w
  | .ok (.error (.response _)), _ => True
  | .ok (.ok (_, reply)), w =>
    payload.accepted reply = false → MayFail verdict i payload.assigned w
  | .error _, _ => True

theorem Split.later {payload : Payload} {r : Except Raised (Except ForwardError (ℕ × Json))}
    (split : Split verdict i payload r w) (moves : Relies i w w') :
    Split verdict i payload r w' := by
  match r, split with
  | .ok (.error (.connect _)), may => exact MayFail.later may moves
  | .ok (.error (.response _)), _ => trivial
  | .ok (.ok (_, reply)), may => exact fun refused => MayFail.later (may refused) moves
  | .error _, _ => trivial

/-- What is known after the send: it failed, or the reply is awaited. -/
theorem Acts.sent_own {transport : Option String} {payload : Payload} {answer : Except String Unit}
    (fresh : Holding i payload.assigned w)
    (acts : Acts lib admits i (.request transport payload) w answer w') :
    w'.held i = some payload.assigned ∧ w'.own i = [⟨i, payload, sentFate answer⟩] ∧
      ¬ w'.db.Failed payload.assigned := by
  cases acts
  refine ⟨fresh.held, ?_, fresh.unfailed⟩
  rw [Traffic.own, own_sent, fresh.own, if_pos rfl, List.nil_append]

/-- A reply settles the forward that waits for it. -/
theorem Acts.received_own {payload : Payload} {answer : Except String (ℕ × List UInt8)}
    (sent : Sent i payload w) (acts : Acts lib admits i .response w answer w') :
    w'.held i = some payload.assigned ∧
      w'.own i = [Forward.settle i answer ⟨i, payload, .pending⟩] ∧
      ∀ status body reply, answer = .ok (status, body) → lib.loads (readOr body) = .ok reply →
        admits payload reply := by
  cases acts with
  | received answer admitted =>
    refine ⟨sent.held, ?_, fun status body reply same decoded => ?_⟩
    · rw [Traffic.own, own_settle, sent.own, List.map_singleton]
    · exact admitted status body reply same decoded ⟨i, payload, .pending⟩ (by simp [sent.own])

theorem safe_response (judges : Judges lib admits verdict) {payload : Payload}
    (sent : Sent i payload w) :
    (traffic lib admits i).Safe (Permits verdict i) (Split verdict i payload)
      (do
        match ← StartRoutine.response with
        | .error message => pure (.error (.response message))
        | .ok (status, body) =>
          match lib.loads (readOr body) with
          | .error message => pure (.error (.response message))
          | .ok reply => pure (.ok (status, reply))) w := by
  intro w1 moves1
  have here := sent.later moves1
  refine ⟨fun sid held => ?_, fun answer w2 acts => ?_⟩
  · rw [here.held] at held
    exact Option.some.inj held ▸ here.unfailed
  · obtain ⟨held, own, admitted⟩ := acts.received_own here
    match answer with
    | .error message => exact fun _ _ => trivial
    | .ok (status, body) =>
      simp only [Prog.bind]
      cases decoded : lib.loads (readOr body) with
      | error message => exact fun _ _ => trivial
      | ok reply =>
        refine fun w3 moves3 => Split.later ?_ moves3
        refine fun refused => ⟨held, fun f member => ?_⟩
        have settled : Forward.settle i (.ok (status, body)) ⟨i, payload, .pending⟩ =
            ⟨i, payload, .answered status body⟩ := if_pos rfl
        rw [own, settled, List.mem_singleton] at member
        subst member
        exact judges.refused _ status body reply rfl decoded
          (admitted status body reply rfl decoded) refused

theorem safe_phaseSplit (judges : Judges lib admits verdict) (transport : Option String)
    {payload : Payload} (fresh : Holding i payload.assigned w) :
    (traffic lib admits i).Safe (Permits verdict i) (Split verdict i payload)
      (phaseSplit lib transport payload) w := by
  intro w1 moves1
  have here := fresh.later moves1
  refine ⟨⟨here.held, here.own, here.unfailed⟩, fun answer w2 acts => ?_⟩
  obtain ⟨held, own, unfailed⟩ := acts.sent_own here
  match answer with
  | .error message =>
    refine fun w3 moves3 => Split.later ⟨held, fun f member => ?_⟩ moves3
    rw [own, List.mem_singleton] at member
    subst member
    exact judges.unsent _ message rfl
  | .ok () => exact safe_response judges ⟨held, own, unfailed⟩

/-- A success is committed, anything else is recorded failed. -/
theorem goes_answered {payload : Payload} {gen : GenerationHandle} {reply : Json} {success : Bool}
    {out : ℕ × Json} {reason fallback : String} {x : Raised} (decides : payload.accepted reply = success)
    (may : payload.accepted reply = false → MayFail verdict i payload.assigned w) :
    Goes lib admits verdict i (if success then do
        StartRoutine.commit payload.assigned gen
        pure out
      else do
        failStart payload.assigned reason fallback
        (.raise x : StartRoutine (ℕ × Json))) w := by
  cases success with
  | true =>
    refine fun w' moves => ⟨trivial, fun answer w'' _ => ?_⟩
    cases answer <;> exact fun _ _ => trivial
  | false => exact safe_failed reason fallback x (may decides) fun _ _ => trivial

theorem goes_startForward (judges : Judges lib admits verdict) {sid : String}
    (ownerId executor task cwd : String) (model : Option String) (gen : GenerationHandle)
    (fresh : Holding i sid w) :
    Goes lib admits verdict i (StartPath.forward lib sid ownerId executor task cwd model gen) w := by
  let payload : Payload := .start executor task cwd ownerId model sid
  have fresh' : Holding i payload.assigned w := fresh
  refine Setting.Safe.bind ((safe_phaseSplit judges gen.transport fresh').mono fun r w split => ?_)
  match r, split with
  | .error x, _ => trivial
  | .ok (.error (.connect message)), may => exact safe_failed _ _ _ may fun _ _ => trivial
  | .ok (.error (.response message)), _ => exact fun _ _ => trivial
  | .ok (.ok (status, reply)), may => exact goes_answered rfl may

theorem goes_restartForward (judges : Judges lib admits verdict) {newSid : String}
    (ownerId oldSid : String) (force : Bool) (gen : GenerationHandle) (fresh : Holding i newSid w) :
    Goes lib admits verdict i (RestartPath.forward lib newSid ownerId oldSid force gen) w := by
  let payload : Payload := .restart oldSid force newSid ownerId
  have fresh' : Holding i payload.assigned w := fresh
  refine Setting.Safe.bind ((safe_phaseSplit judges gen.transport fresh').mono fun r w split => ?_)
  match r, split with
  | .error x, _ => trivial
  | .ok (.error (.connect message)), may => exact safe_failed _ _ _ may fun _ _ => trivial
  | .ok (.error (.response message)), _ => exact fun _ _ => trivial
  | .ok (.ok (status, reply)), may => exact goes_answered rfl may

/-- A request that has not started. -/
def Idle (i : ℕ) (w : Traffic) : Prop := w.held i = none ∧ w.own i = []

/-- A reservation is replayed, or makes the request the holder of a fresh start. -/
theorem goes_reserve {request : Request} {replay : Reservation → StartRoutine (ℕ × Json)}
    {drive : Reservation → StartRoutine (ℕ × Json)} (idle : Idle i w)
    (replays : ∀ res w, Goes lib admits verdict i (replay res) w)
    (drives : ∀ res w, Holding i res.sessionId w → Goes lib admits verdict i (drive res) w) :
    Goes lib admits verdict i (do
      let res ← StartRoutine.reserve request
      if res.replay then replay res else drive res) w := by
  intro w1 moves1
  have idle1 : Idle i w1 := ⟨moves1.held.trans idle.1, moves1.own.trans idle.2⟩
  refine ⟨idle1, fun answer w2 acts => ?_⟩
  cases acts with
  | unreserved raised => exact fun _ _ => trivial
  | @reserved _ minted clock _ res db' done =>
    rcases reserve_cases done with ⟨again, -⟩ | ⟨new, absent, row, named, starting, inserted⟩
    · simp only [Prog.bind, again, if_true]
      exact replays res _
    · simp only [Prog.bind, new, Bool.false_eq_true, if_false]
      refine drives res _ ⟨Function.update_self .., idle1.2, ?_⟩
      rintro ⟨found, there, failed⟩
      rw [← named, findStart_insert inserted] at there
      rw [← Option.some.inj there, starting] at failed
      cases failed

theorem goes_replayed (operation started fallback : String) (res : Reservation) (w : Traffic) :
    Goes lib admits verdict i (replayed operation started fallback res) w := by
  unfold replayed
  cases res.state <;> exact fun _ _ => trivial

/-- An envelope around a request changes nothing. -/
theorem goes_enveloped {httpStatus : ErrorCode → ℕ} {body : StartRoutine (ℕ × Json)}
    (goes : Goes lib admits verdict i body w) :
    Goes lib admits verdict i (enveloped httpStatus body) w := by
  refine Setting.Safe.rescue (goes.mono fun r w _ => ?_)
  match r with
  | .ok a => trivial
  | .error (.nelix e) => exact fun _ _ => trivial
  | .error .typeError | .error .attributeError | .error .valueError | .error .overflowError
  | .error (.runtimeError _) => exact fun _ _ => trivial

theorem goes_start (judges : Judges lib admits verdict) (body : Json) (idle : Idle i w) :
    Goes lib admits verdict i (StartPath.handle lib body) w := by
  refine goes_enveloped ?_
  unfold StartPath.handleBody
  cases StartPath.fields lib body with
  | error x => exact fun _ _ => trivial
  | ok f =>
    exact goes_reserve idle (fun res w => goes_replayed _ _ _ res w) fun res w fresh =>
      goes_driveFresh fresh fun gen w fresh => goes_startForward judges _ _ _ _ _ gen fresh

theorem goes_restart (judges : Judges lib admits verdict) (body : Json) (idle : Idle i w) :
    Goes lib admits verdict i (RestartPath.handle lib body) w := by
  refine goes_enveloped ?_
  unfold RestartPath.handleBody
  cases RestartPath.fields lib body with
  | error x => exact fun _ _ => trivial
  | ok f =>
    exact goes_reserve idle (fun res w => goes_replayed _ _ _ res w) fun res w fresh =>
      goes_driveFresh fresh fun gen w fresh => goes_restartForward judges _ _ _ gen fresh

theorem startCrew_sound (judges : Judges lib admits verdict) :
    (startCrew lib admits).Sound (Orderly verdict) (Permits verdict) (fun _ _ _ => True) Idle where
  keeps i e w r w' orderly permits acts := Acts.keeps orderly permits acts
  spares i j e w r w' other orderly permits acts := Acts.relies orderly permits acts other
  aside w w' orderly moves := by
    obtain ⟨call, db', done, same, rfl⟩ := moves
    have spared : ∀ sid, Store.Spares w.db db' sid := fun sid => .of_starts same sid
    refine ⟨orderly.write (orderly.ledger.keeps (Call.startsEffect done))
      (fun sid => (spared sid).there) fun f _ failed => .inl ((spared _).failed.mp failed),
      fun i => ⟨rfl, rfl, fun sid _ => (spared sid).failed⟩⟩
  enters i p w enters orderly idle := by
    obtain ⟨body, rfl | rfl⟩ := enters
    · exact goes_start judges body idle
    · exact goes_restart judges body idle
  waits i w w' idle moves := ⟨moves.held.trans idle.1, moves.own.trans idle.2⟩

/-! ### Runs -/

/-- The reply is a success of what was asked or an explicit no. -/
def Contractual (payload : Payload) (reply : Json) : Prop :=
  payload.accepted reply = true ∨ rejects reply = true

theorem judges_anything (lib : Library) (admits : Payload → Json → Prop) :
    Judges lib admits fun _ => True := ⟨fun _ _ _ => trivial, fun _ _ _ _ _ _ _ _ => trivial⟩

theorem judges_contractual (lib : Library) : Judges lib Contractual (Forward.Refused lib) where
  unsent f message fate := by
    rw [Forward.Refused, fate]
    trivial
  refused f status body reply fate decoded contractual refused := by
    rw [Forward.Refused, fate]
    refine ⟨reply, decoded, refused, contractual.resolve_left fun accepted => ?_⟩
    rw [refused] at accepted
    cases accepted

theorem mem_forwardsOf {f : Forward} {owner key : String} (member : f ∈ w.forwardsOf owner key) :
    f ∈ w.forwards ∧ ∃ row, w.db.findStart f.payload.assigned = some row ∧
      row.ownerId = owner ∧ row.idempotencyKey = key := by
  obtain ⟨sent, about⟩ := List.mem_filter.mp member
  refine ⟨sent, ?_⟩
  cases found : w.db.findStart f.payload.assigned with
  | none => simp [found] at about
  | some row => exact ⟨row, rfl, by simpa [found] using about⟩

/-- The forwards for one owner and key are one request's, and a request forwards once. -/
theorem Orderly.forwardsOf_le_one (orderly : Orderly verdict w) (owner key : String) :
    (w.forwardsOf owner key).length ≤ 1 := by
  have one : ∀ f ∈ w.forwardsOf owner key, ∀ f' ∈ w.forwardsOf owner key,
      f.thread = f'.thread := by
    intro f member f' member'
    obtain ⟨sent, row, found, owns, keyed⟩ := mem_forwardsOf member
    obtain ⟨sent', row', found', owns', keyed'⟩ := mem_forwardsOf member'
    have listed := orderly.ledger.startOf_eq (Table.mem_of_find? found)
    have listed' := orderly.ledger.startOf_eq (Table.mem_of_find? found')
    rw [owns, keyed, ← owns', ← keyed', listed'] at listed
    have same : f.payload.assigned = f'.payload.assigned := by
      rw [← Db.sessionId_of_findStart found, ← Db.sessionId_of_findStart found',
        Option.some.inj listed]
    exact orderly.apart _ _ _ (orderly.assigned f sent) (same ▸ orderly.assigned f' sent')
  have once : ((w.forwardsOf owner key).map Forward.thread).Nodup :=
    (List.filter_sublist.map Forward.thread).nodup orderly.once
  match listed : w.forwardsOf owner key with
  | [] => exact Nat.zero_le 1
  | [f] => exact le_rfl
  | f :: f' :: rest =>
    rw [listed] at one once
    have same := one f (by simp) f' (by simp)
    simp [same] at once

/-- In every run of any number of start and restart requests over any store, no owner and key has
two forwards. Where every reply is a success or an explicit no, a start that is recorded failed was
not sent or was rejected. -/
theorem starts_forwarded_once (lib : Library) (calls : List Call) :
    (∀ pool, (startCrew lib fun _ _ => True).Reaches { db := machine.after {} calls } pool →
      (∀ owner key, (pool.world.forwardsOf owner key).length ≤ 1) ∧
      ∀ f ∈ pool.world.forwards, (pool.world.db.findStart f.payload.assigned).isSome = true) ∧
    ∀ pool, (startCrew lib Contractual).Reaches { db := machine.after {} calls } pool →
      ∀ f ∈ pool.world.forwards, pool.world.db.Failed f.payload.assigned → f.Refused lib := by
  have start (verdict : Forward → Prop) : Orderly verdict { db := machine.after {} calls } :=
    ⟨ledgerOk_after calls, fun _ _ held => (by cases held), fun _ _ _ held => (by cases held),
      fun _ member => (by cases member), List.nodup_nil, fun _ member => (by cases member)⟩
  have quiet (i : ℕ) : Idle i { db := machine.after {} calls } := ⟨rfl, rfl⟩
  refine ⟨fun pool reached => ?_, fun pool reached => ?_⟩
  · have orderly := ((startCrew_sound (judges_anything lib _)).reaches (start _) quiet reached).1
    exact ⟨orderly.forwardsOf_le_one, fun f member =>
      orderly.reserved _ _ (orderly.assigned f member)⟩
  · exact ((startCrew_sound (judges_contractual lib)).reaches (start _) quiet reached).1.justified

/-! ### An empty reply -/

def emptyReplyBody : Json := .object
  [("owner_id", .text "owner"), ("idempotency_key", .text "key-1"), ("executor", .text "codex"),
    ("task", .text "t"), ("cwd", .text "/"),
    ("orchestration_id", .text "o-00000000000000000000000000000001")]

/-- The library on what this request meets. -/
def emptyReplyLibrary : Library where
  loads body := if body = emptyBody then .ok (.object []) else .error "Expecting value"
  dumps _ := "\x7b\"cwd\":\"/\",\"executor\":\"codex\",\"model\":null,\"orchestration_id\":\"o-00000000000000000000000000000001\",\"task\":\"t\"\x7d"
  sha256 _ := "c27a8fab517f86f381d31e8bc8400760e5cef0d54ab1fba11c7bbb8bbdbeae32"
  repr _ := "\x7b\x7d"
  str _ := "\x7b\x7d"

/-- Every transaction goes through, and the daemon's reply has no body. -/
def emptyReply (e : StartEffect) (w : Traffic) : e.Answer × Traffic :=
  match e with
  | .reserve request =>
    match w.db.reserve request sampleId (.finite 1) with
    | .error raised => (.error raised, w)
    | .ok (res, db') => (.ok res, { w with
        db := db'
        held := if res.replay then w.held else Function.update w.held 0 (some res.sessionId) })
  | .active => (.ok ⟨sampleGeneration, firstEpoch, some "/g.sock", none, .null⟩, w)
  | .assignGeneration sid g e =>
    match w.db.assignGeneration sid g e with
    | .error raised => (.error raised, w)
    | .ok db' => (.ok (), { w with db := db' })
  | .commit sid g e =>
    match w.db.commit sid g e with
    | .error raised => (.error raised, w)
    | .ok db' => (.ok (), { w with db := db' })
  | .fail sid reason =>
    match w.db.fail sid reason with
    | .error raised => (.error raised, w)
    | .ok db' => (.ok (), { w with db := db' })
  | .request _ payload => (.ok (), { w with forwards := w.forwards ++ [⟨0, payload, .pending⟩] })
  | .response => (.ok (200, []), { w with forwards := w.forwards.map (Forward.settle 0 (.ok (200, []))) })

theorem emptyReply_acts (e : StartEffect) (w : Traffic) :
    Acts emptyReplyLibrary (fun _ _ => True) 0 e w (emptyReply e w).1 (emptyReply e w).2 := by
  cases e with
  | reserve request =>
    simp only [emptyReply]
    split
    · exact .unreserved _
    · rename_i done
      exact .reserved done
  | active => exact .active _
  | assignGeneration sid g e =>
    simp only [emptyReply]
    split
    · exact .unassigned _
    · rename_i done
      exact .assigned done
  | commit sid g e =>
    simp only [emptyReply]
    split
    · exact .uncommitted _
    · rename_i done
      exact .committed done
  | fail sid reason =>
    simp only [emptyReply]
    split
    · exact .unfailed _
    · rename_i done
      exact .failed done
  | request transport payload => exact .sent (.ok ())
  | response => exact .received _ fun _ _ _ _ _ _ _ => trivial

/-- The request after its last effect. -/
def emptyReplyRun : StartRoutine (ℕ × Json) × Traffic :=
  (StartPath.handle emptyReplyLibrary emptyReplyBody).advance emptyReply 6 { db := {} }

def Fate.answeredNothing : Fate → Bool
  | .answered _ body => body.isEmpty
  | _ => false

theorem emptyReply_reaches : (startCrew emptyReplyLibrary fun _ _ => True).Reaches { db := {} }
    ⟨Function.update (fun _ => none) 0 (some emptyReplyRun.1), emptyReplyRun.2⟩ := by
  have complies (n : ℕ) (p : StartRoutine (ℕ × Json)) (w : Traffic) :
      p.complies emptyReply (fun _ _ => true) n w = true := by
    induction n generalizing p w with
    | zero => rfl
    | succ n ih =>
      cases p with
      | done r => rfl
      | perform e next => exact ih _ _
  have entered : (startCrew emptyReplyLibrary fun _ _ => True).Step ⟨fun _ => none, { db := {} }⟩
      ⟨Function.update (fun _ => none) 0
        (some (StartPath.handle emptyReplyLibrary emptyReplyBody)), { db := {} }⟩ :=
    .enter rfl ⟨emptyReplyBody, .inl rfl⟩
  exact .head entered (Crew.steps_advance (fun e w _ => emptyReply_acts e w) (complies 6 _ _))

/-- The start was sent and answered with nothing, and is recorded failed. -/
theorem starts_forwarded_once_empty :
    ∃ pool, (startCrew emptyReplyLibrary fun _ _ => True).Reaches { db := {} } pool ∧
      ∃ f ∈ pool.world.forwards, pool.world.db.Failed f.payload.assigned ∧
        ¬ f.Refused emptyReplyLibrary := by
  have sent : (emptyReplyRun.2.forwards.any fun f =>
      f.payload.assigned = sampleId.value && f.fate.answeredNothing) = true := by decide +kernel
  have failed : (emptyReplyRun.2.db.findStart sampleId.value).map StartRow.state =
      some .failed := by decide +kernel
  obtain ⟨f, member, about⟩ := List.any_eq_true.mp sent
  simp only [Bool.and_eq_true, decide_eq_true_eq] at about
  refine ⟨_, emptyReply_reaches, f, member, ?_, ?_⟩
  · obtain ⟨row, found, state⟩ := Option.map_eq_some_iff.mp failed
    exact ⟨row, about.1 ▸ found, state⟩
  · intro refused
    rw [Forward.Refused] at refused
    cases fate : f.fate with
    | answered status body =>
      obtain rfl : body = [] := by simpa [fate, Fate.answeredNothing] using about.2
      rw [fate] at refused
      obtain ⟨reply, decoded, -, rejected⟩ := refused
      cases decoded
      cases rejected
    | _ => simp [fate, Fate.answeredNothing] at about

end Nelix.Router
