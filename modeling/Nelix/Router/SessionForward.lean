import Nelix.Daemon.Dialog
import Nelix.Router.StatusBoard

/-!
# Forwarding by session

A request about one session: which daemon it is sent to, and what the archive answers where the
session's epoch serves no longer. A session that the ledger does not know, or whose reads fail, falls
back to the active generation.

## Main results

`forwarded_home_iff`: a request reaches no daemon but that of its session's own epoch exactly where
the registry has adopted that epoch, the reads settle the request, or the fallback finds no other.

`archived_blind_iff`: what the archive answers to another owner tells nothing about the session
exactly where it is not asked for a page of the dialog.
-/
namespace Nelix.Router

open Contracts Core Store GenRoutine
open Daemon (DialogReader DialogPage dialogPage)

/-! ### Where a session's epoch stands -/

/-- `resolve_generation_state`'s answer. -/
structure GenerationState where
  processState : ProcessState
  lifecycleState : Lifecycle
  capabilitySnapshot : Option String
  handle : Option Adopted

/-- The adopted generation is this one, in this epoch. -/
def Adopted.isOf (a : Adopted) (gid : String) (epoch : Option String) : Bool :=
  a.generationId = gid && some a.epoch = epoch

namespace Registry

/-- The row of the generation and that of the epoch. -/
def readEpochRow (gid : String) (epoch : Option String) :
    GenRoutine (GenerationRow × EpochRecord) := do
  let genRec ← ask (.getGeneration gid)
  let epochs ← ask (.listEpochs gid)
  match epochs.find? (some ·.generationEpoch = epoch) with
  | none =>
    let shown := epoch.getD "None"
    refused .unknownSession s!"epoch {shown} not found for generation {gid}"
  | some epochRec => pure (genRec, epochRec)

/-- The handle, where the adopted generation is the one asked for and answers. -/
def handleLocked (gid : String) (epoch : Option String) : GenRoutine (Option Adopted) := do
  match (← readCell).active with
  | none => pure none
  | some a =>
    if a.isOf gid epoch then
      exceptNelix (do
        let refreshed ← refreshActiveLocked a
        pure (some refreshed))
        fun _ => pure none
    else pure none

/-- Only a serving epoch has a handle. -/
def handleFor (gid : String) (epoch : Option String) (processState : ProcessState) :
    GenRoutine (Option Adopted) :=
  if processState = .serving then do
    lockRegistry
    (handleLocked gid epoch).ensure unlockRegistry
  else pure none

/-- What the rows come to. -/
def generationState (gid : String) (epoch : Option String)
    (rows : GenerationRow × EpochRecord) : GenRoutine GenerationState := do
  let handle ← handleFor gid epoch rows.2.processState
  pure ⟨rows.2.processState, rows.1.lifecycleState, rows.1.capabilitySnapshot, handle⟩

/-- `resolve_generation_state` with a store configured. -/
def resolveGenerationState (gid : String) (epoch : Option String) : GenRoutine GenerationState := do
  let rows ← readEpochRow gid epoch
  generationState gid epoch rows

end Registry

/-! ### Requests -/

/-- A query parameter as it is handed on: HTTP hands on texts. -/
inductive Param
  | text (value : String)
  | int (value : ℤ)
  deriving DecidableEq

/-- The value as a number that is compared with others; a str raises. -/
def Param.compared : Param → Outcome ℤ
  | .text _ => .error .typeError
  | .int value => .ok value

/-- The owner's routes. -/
inductive OwnerRoute
  | status
  | dialog (offset limit : Option Param)
  | screen
  | respond
  | stop
  | restart
  deriving DecidableEq

/-- A session-keyed request: the owner's plane, or a hook's or a message's. -/
inductive SessionRequest
  | owner (ownerId : String) (route : OwnerRoute)
  | secret
  deriving DecidableEq

/-- The shapes that are checked before anything is read. -/
def SessionRequest.check (sid : String) : SessionRequest → Outcome Unit
  | .owner ownerId _ => do
    require (validOwnerId ownerId = true) .invalidRequest s!"invalid owner_id: {pyRepr ownerId}"
    require (validSessionId sid = true) .invalidRequest s!"invalid session_id: {pyRepr sid}"
  | .secret =>
    require (validSessionId sid = true) .invalidRequest s!"invalid session_id: {pyRepr sid}"

/-- `SessionForward`: its ledger's `get_session_generation`. -/
structure SessionForward where
  ledger : Option (String → Outcome (String × Option String))

/-- What the archive is read from: the store in the state in which it is read, the transcripts on
disk, and what `int(0.6 * limit)` comes to. -/
structure Archive where
  store : Option Db
  transcript : String → Option (List Json)
  share : ℕ → ℕ

/-- Where a request goes. -/
inductive Destination
  | generation (a : Adopted)
  | archive

/-! ### The archive -/

def unsupported {α : Type} : Outcome α :=
  refuse .unsupportedByGeneration "this session's generation is no longer serving"

namespace Archive

/-- The page as it is sent. -/
def pageReply (page : DialogPage) : Json :=
  .object
    [("text", .text (String.ofList page.text)), ("start_offset", .int page.startOffset),
      ("next_offset", .int page.nextOffset), ("speaker_at_start", page.speakerAtStart),
      ("continued", .bool page.continued), ("total_len", .int page.totalLen),
      ("unavailable", .bool false), ("at_end", .bool (page.totalLen ≤ page.nextOffset))]

/-- The page of a transcript that is there; a parameter that is a str raises in the comparison. -/
def dialogReply (archive : Archive) (sid : String) (offset limit : Option Param) :
    Outcome (Option Json) := do
  let reader ← DialogReader.read (archive.transcript sid)
  match reader.records with
  | none => pure none
  | some records => do
    let offset ← (offset.getD (.int 0)).compared
    let limit ← limit.mapM Param.compared
    let page ← dialogPage archive.share records true offset limit
    pure (some (pageReply page))

/-- The status of a session with an archived result. -/
def statusReply (sid : String) (terminal : TerminalRecord) : Json :=
  .object
    [("session_id", .text sid), ("terminal_kind", .text terminal.row.terminalKind),
      ("screen_excerpt", .text terminal.row.summary), ("control_state", .text "terminal"),
      ("pending", .bool false), ("terminal", .bool true)]

/-- `_route_archived` -/
def routeArchived (archive : Archive) (sid ownerId : String) : OwnerRoute → Outcome (ℤ × Json)
  | .status =>
    match archive.store with
    | none => unsupported
    | some db =>
      match db.getTerminal sid ownerId with
      | .ok terminal => .ok (200, statusReply sid terminal)
      | .error (.nelix _) => unsupported
      | .error raised => .error raised
  | .dialog offset limit =>
    match archive.dialogReply sid offset limit with
    | .ok (some page) => .ok (200, page)
    | .ok none | .error _ => unsupported
  | .screen | .respond | .stop | .restart => unsupported

end Archive

/-! ### The route -/

namespace SessionForward

/-- What is known of the session's generation; none where the ledger or the registry refuses. -/
def lookup (f : SessionForward) (sid : String) : GenRoutine (Option GenerationState) :=
  match f.ledger with
  | none => pure none
  | some getSessionGeneration =>
    exceptNelix (do
      let (gid, epoch) ← .done (getSessionGeneration sid)
      let state ← Registry.resolveGenerationState gid epoch
      pure (some state))
      fun _ => pure none

def fallBack (at_ : Deployment) : GenRoutine Destination := do
  let gen ← Registry.active at_
  pure (.generation gen)

/-- The dispatch of `_resolve_and_forward`. -/
def dispatch (at_ : Deployment) (route : OwnerRoute) :
    Option GenerationState → GenRoutine Destination
  | none => fallBack at_
  | some state =>
    if route = .restart ∧ state.lifecycleState = .draining ∧ state.processState = .serving then
      refused .generationUnavailable "draining generation rejects restart; use POST /restart to spawn on the active generation"
    else if state.processState ≠ .serving then pure .archive
    else
      match state.handle with
      | some handle => pure (.generation handle)
      | none => fallBack at_

/-- The dispatch of `forward_secret`. -/
def dispatchSecret (at_ : Deployment) : Option GenerationState → GenRoutine Destination
  | none => fallBack at_
  | some state =>
    match state.handle with
    | some handle => pure (.generation handle)
    | none =>
      if state.processState ≠ .serving then .done unsupported
      else fallBack at_

/-- Where the request is sent. -/
def target (f : SessionForward) (at_ : Deployment) (sid : String) (request : SessionRequest) :
    GenRoutine Destination := do
  .done (request.check sid)
  let found ← f.lookup sid
  match request with
  | .owner _ route => dispatch at_ route found
  | .secret => dispatchSecret at_ found

/-- The whole request; `live a` is what becomes of it at that generation's daemon. -/
def handle (f : SessionForward) (at_ : Deployment) (archive : Archive) (live : Adopted → LiveRead)
    (sid : String) (request : SessionRequest) : GenRoutine (ℤ × Json) := do
  match ← f.target at_ sid request, request with
  | .generation a, _ => .done (relay (live a))
  | .archive, .owner ownerId route => .done (archive.routeArchived sid ownerId route)
  | .archive, .secret => .done unsupported

end SessionForward

/-! ### A request alone -/

/-- The registry's cell is as it stands; whatever else is asked, the store's reads among it, answers
one question after another. -/
def Replies.routing (c : Replies) (e : GenEffect) (w : Cell × ℕ) : e.Answer × (Cell × ℕ) :=
  match e with
  | .readCell => (w.1, w)
  | .remember g => ((), { w.1 with generationId := some g }, w.2)
  | .refresh transport incarnation =>
    ((), { w.1 with active := w.1.active.map fun a =>
      { a with transport := transport, incarnation := incarnation } }, w.2)
  | .install adopted bump =>
    ((), { w.1 with
      active := some adopted
      topologyRevision := w.1.topologyRevision + if bump then 1 else 0 }, w.2)
  | .lockRegistry | .unlockRegistry => ((), w)
  | e => (c w.2 e, w.1, w.2 + 1)

/-- The adopted generation is this one, in this epoch. -/
def Cell.Holds (cell : Cell) (g e : String) : Prop :=
  ∃ a, cell.active = some a ∧ a.isOf g (some e) = true

/-- The reads about a session: its pair from the ledger, and the two rows from the store. -/
def readRows (getSessionGeneration : String → Outcome (String × Option String)) (sid : String) :
    GenRoutine (GenerationRow × EpochRecord) := do
  let (gid, epoch) ← .done (getSessionGeneration sid)
  Registry.readEpochRow gid epoch

/-- A restart by session id. -/
def SessionRequest.restarts : SessionRequest → Prop
  | .owner _ .restart => True
  | _ => False

/-- The reads leave nothing to forward. -/
inductive Settled (request : SessionRequest) : Except Raised (GenerationRow × EpochRecord) → Prop
  | raised (raised : Raised) (other : ∀ error, raised ≠ .nelix error) :
      Settled request (.error raised)
  | ended (rows : GenerationRow × EpochRecord) (state : rows.2.processState ≠ .serving) :
      Settled request (.ok rows)
  | drains (rows : GenerationRow × EpochRecord) (restarts : request.restarts)
      (state : rows.1.lifecycleState = .draining) : Settled request (.ok rows)

/-- What keeps a request from another generation's daemon. -/
inductive Homeward (at_ : Deployment) (c : Replies)
    (getSessionGeneration : String → Outcome (String × Option String)) (sid g e : String)
    (request : SessionRequest) (w : Cell × ℕ) : Prop
  | malformed (refused : request.check sid ≠ .ok ())
  | adopted (held : w.1.Holds g e)
  | settled (reads : Settled request
      ((readRows getSessionGeneration sid).run c.routing w).1)
  /-- The adopted generation does not come through its refresh. -/
  | unreachable (a : Adopted) (active : w.1.active = some a)
      (fails : ∀ b, ((Registry.refreshActiveLocked a).run c.routing
        ((readRows getSessionGeneration sid).run c.routing w).2).1 ≠ .ok b)
  /-- Nobody is adopted, and what is found or created is the session's own. -/
  | created (nobody : w.1.active = none)
      (own : ∀ a, ((Registry.findOrCreateLocked at_).run c.routing
        ((readRows getSessionGeneration sid).run c.routing w).2).1 = .ok a →
          a.isOf g (some e) = true)

variable {c : Replies} {at_ : Deployment} {w w' : Cell × ℕ} {g e sid : String}
  {request : SessionRequest}

/-! ### What the adopted generation is kept -/

/-- Effects that adopt nothing. -/
def Unadopting : GenEffect → Prop
  | .install .. => False
  | _ => True

theorem holds_keeps (effect : GenEffect) (w : Cell × ℕ) (calm : Unadopting effect)
    (held : w.1.Holds g e) : (c.routing effect w).2.1.Holds g e := by
  cases effect with
  | install => cases calm
  | refresh =>
    obtain ⟨a, active, own⟩ := held
    exact ⟨_, congrArg (Option.map _) active, own⟩
  | _ => exact held

theorem unadopting_supervise (gid : String) : (supervise gid).Only Unadopting := by
  unfold supervise
  split
  · exact .pure
  · exact .raise

theorem unadopting_verifyPointer (gid epoch : String) :
    (Registry.verifyPointer gid epoch).Only Unadopting := by
  refine .bind (.perform trivial fun _ => .done) fun genRec => ?_
  refine .bind (.perform trivial fun _ => .done) fun epochs => ?_
  repeat' split
  all_goals first | exact .raise | exact .pure | exact .perform trivial fun _ => .done

theorem unadopting_refresh (a : Adopted) : (Registry.refreshActiveLocked a).Only Unadopting := by
  refine .bind (unadopting_supervise _) fun _ => ?_
  refine .bind (.perform trivial fun _ => .done) fun holder => ?_
  split
  · exact .raise
  refine .bind ?_ fun transport => ?_
  · unfold Registry.transportOf
    split
    · exact .pure
    · exact .perform trivial fun _ => .done
  split
  · exact .raise
  refine .bind (.perform trivial fun _ => .done) fun healthy => ?_
  repeat' split
  · exact .raise
  · exact .raise
  · refine .bind (unadopting_verifyPointer _ _) fun _ => ?_
    refine .bind (.perform trivial fun _ => .done) fun again => ?_
    split
    · exact .raise
    · exact .bind (.perform trivial fun _ => .done) fun _ => .pure

/-- A refresh hands back the generation it was asked for. -/
theorem refresh_ends (a : Adopted) : (Registry.refreshActiveLocked a).Ends fun r =>
    ∀ a', r = .ok a' → a'.generationId = a.generationId ∧ a'.epoch = a.epoch := by
  have refused : ∀ x : Raised, ∀ a' : Adopted, Except.error x = .ok a' →
      a'.generationId = a.generationId ∧ a'.epoch = a.epoch := by
    intro x a' same
    cases same
  -- Every check only refuses; the handle that comes out is the old one with another transport.
  refine .bind refused fun _ => .bind refused fun holder => ?_
  split
  · exact refused _
  refine .bind refused fun transport => ?_
  split
  · exact refused _
  refine .bind refused fun healthy => ?_
  repeat' split
  · exact refused _
  · exact refused _
  · refine .bind refused fun _ => ?_
    refine .bind refused fun again => ?_
    split
    · exact refused _
    · refine .bind refused fun _ => ?_
      intro a' same
      rw [← Except.ok.inj same]
      exact ⟨rfl, rfl⟩

theorem isOf_of_same {a a' : Adopted} {epoch : Option String}
    (same : a'.generationId = a.generationId ∧ a'.epoch = a.epoch)
    (own : a.isOf g epoch = true) : a'.isOf g epoch = true := by
  rw [Adopted.isOf, same.1, same.2]
  exact own

/-- `active()` refreshes whoever is adopted, and finds or creates someone where nobody is. -/
theorem active_run (at_ : Deployment) (c : Replies) (w : Cell × ℕ) :
    ((Registry.active at_).run c.routing w).1 =
      ((match w.1.active with
        | some a => Registry.refreshActiveLocked a
        | none => Registry.findOrCreateLocked at_ : GenRoutine Adopted).run c.routing w).1 := by
  have composed : (Registry.active at_).run c.routing w =
      (unlockRegistry >>= fun _ =>
        (.done ((Registry.activeLocked at_).run c.routing w).1 : GenRoutine Adopted)).run
        c.routing ((Registry.activeLocked at_).run c.routing w).2 :=
    Prog.run_ensure (Registry.activeLocked at_) unlockRegistry w
  rw [composed]
  rfl

/-- Where the session's epoch is adopted, `active()` yields that one or none. -/
theorem active_of_holds (held : w.1.Holds g e) {a : Adopted}
    (ran : (Registry.active at_).run c.routing w = (.ok a, w')) : a.isOf g (some e) = true := by
  obtain ⟨b, active, own⟩ := held
  have refreshed := (active_run at_ c w).symm.trans (congrArg Prod.fst ran)
  rw [active] at refreshed
  exact isOf_of_same ((refresh_ends b).run w a refreshed) own

/-- Where another epoch is adopted, `active()` never yields the session's. -/
theorem active_of_other {b : Adopted} (active : w.1.active = some b) (absent : ¬ w.1.Holds g e)
    {a : Adopted} (ran : ((Registry.refreshActiveLocked b).run c.routing w).1 = .ok a) :
    a.isOf g (some e) = false := by
  obtain ⟨generation, epoch⟩ := (refresh_ends b).run w a ran
  refine Bool.eq_false_iff.mpr fun own => absent ⟨b, active, ?_⟩
  exact isOf_of_same ⟨generation.symm, epoch.symm⟩ own

/-! ### What the reads come to -/

variable {f : SessionForward} {getSessionGeneration : String → Outcome (String × Option String)}
  {reads : Except Raised (GenerationRow × EpochRecord) × (Cell × ℕ)}
  (read : (readRows getSessionGeneration sid).run c.routing w = reads)

include read

/-- The reads leave the cell alone. -/
theorem readRows_cell : reads.2.1 = w.1 := by
  let asks : GenEffect → Prop := fun effect => ∃ query, effect = .ask query
  have only : (readRows getSessionGeneration sid).Only asks := by
    refine .bind .done fun pair => ?_
    refine .bind (.perform ⟨_, rfl⟩ fun _ => .done) fun genRec => ?_
    refine .bind (.perform ⟨_, rfl⟩ fun _ => .done) fun epochs => ?_
    split
    · exact .raise
    · exact .pure
  rw [← read]
  refine only.run_keeps (fun w' : Cell × ℕ => w'.1 = w.1) (fun effect w' allowed kept => ?_) rfl
  obtain ⟨query, rfl⟩ := allowed
  exact kept

/-- The reads either end the lookup or hand it their rows. -/
theorem lookup_cases (ledger : f.ledger = some getSessionGeneration)
    (bound : ∀ pair, getSessionGeneration sid = .ok pair → pair = (g, some e)) :
    (∃ error, reads.1 = .error (.nelix error) ∧
      (f.lookup sid).run c.routing w = (.ok none, reads.2)) ∨
    (∃ x, (∀ error, x ≠ .nelix error) ∧ reads.1 = .error x ∧
      (f.lookup sid).run c.routing w = (.error x, reads.2)) ∨
    ∃ rows, reads.1 = .ok rows ∧ (f.lookup sid).run c.routing w =
      (exceptNelix (do
        let state ← Registry.generationState g (some e) rows
        pure (some state))
        fun _ => pure none).run c.routing reads.2 := by
  have looked : (f.lookup sid).run c.routing w = (exceptNelix (do
      let rows ← readRows getSessionGeneration sid
      let state ← Registry.generationState g (some e) rows
      pure (some state)) fun _ => pure none).run c.routing w := by
    unfold SessionForward.lookup readRows
    rw [ledger]
    cases answered : getSessionGeneration sid with
    | error x => simp only [answered, Prog.error_bind]
    | ok pair =>
      obtain rfl := bound pair answered
      simp only [answered, Prog.ok_bind, Registry.resolveGenerationState, Prog.bind_assoc]
  rw [exceptNelix, Prog.run_rescue, Prog.run_bind, read] at looked
  obtain ⟨x | rows, w'⟩ := reads
  · by_cases refused : ∃ error, x = .nelix error
    · obtain ⟨error, rfl⟩ := refused
      exact .inl ⟨error, rfl, looked⟩
    · refine .inr (.inl ⟨x, fun error same => refused ⟨error, same⟩, rfl, looked.trans ?_⟩)
      cases x with
      | nelix error => exact absurd ⟨error, rfl⟩ refused
      | _ => rfl
  · refine .inr (.inr ⟨rows, rfl, looked.trans ?_⟩)
    rw [exceptNelix, Prog.run_rescue]

omit read

/-- Without the session's epoch adopted there is no handle, and nothing is asked for one. -/
theorem handleFor_bare {state : ProcessState} (bare : state ≠ .serving ∨ ¬ w.1.Holds g e) :
    (Registry.handleFor g (some e) state).run c.routing w = (.ok none, w) := by
  by_cases serving : state = .serving
  · have absent : ¬ w.1.Holds g e := bare.resolve_left (not_not_intro serving)
    have none : (Registry.handleLocked g (some e)).run c.routing w = (.ok none, w) := by
      have composed : (Registry.handleLocked g (some e)).run c.routing w =
          (match w.1.active with
          | none => pure none
          | some a =>
            if a.isOf g (some e) then
              exceptNelix (do
                let refreshed ← Registry.refreshActiveLocked a
                pure (some refreshed))
                fun _ => pure none
            else pure none : GenRoutine (Option Adopted)).run c.routing w := rfl
      rw [composed]
      cases active : w.1.active with
      | none => rfl
      | some a =>
        have other : ¬ a.isOf g (some e) = true := fun own => absent ⟨a, active, own⟩
        dsimp only
        rw [if_neg other]
        rfl
    rw [Registry.handleFor, if_pos serving]
    refine (Prog.run_ensure (Registry.handleLocked g (some e)) unlockRegistry w).trans ?_
    rw [none]
    rfl
  · rw [Registry.handleFor, if_neg serving]
    rfl

/-- A handle is the session's own. -/
theorem handleFor_own {state : ProcessState} {a : Adopted}
    (ran : (Registry.handleFor g (some e) state).run c.routing w = (.ok (some a), w')) :
    a.isOf g (some e) = true := by
  have ends : (Registry.handleFor g (some e) state).Ends fun r =>
      ∀ a, r = .ok (some a) → a.isOf g (some e) = true := by
    have refused : ∀ x : Raised, ∀ a, (Except.error x : Except Raised (Option Adopted)) = .ok (some a) →
        a.isOf g (some e) = true := by
      intro x a same
      cases same
    have nothing : ∀ a, (Except.ok none : Except Raised (Option Adopted)) = .ok (some a) →
        a.isOf g (some e) = true := by
      intro a same
      cases same
    unfold Registry.handleFor
    split
    · refine .bind refused fun _ => .ensure refused (.bind refused fun cell => ?_)
      split
      · exact nothing
      · rename_i a active
        split
        · rename_i own
          refine .rescue ?_ fun x => ?_
          · refine (refresh_ends a).andThen (fun x _ a same => by cases same) fun refreshed same => ?_
            intro _ here a' named
            rw [← Except.ok.inj here] at named
            obtain rfl := Option.some.inj (Except.ok.inj named)
            exact isOf_of_same (same refreshed rfl) own
          · cases x <;> first | exact nothing | exact refused _
        · exact nothing
    · exact nothing
  exact ends.run w a (congrArg Prod.fst ran)

/-- A session's own generation stays adopted while its handle is looked for. -/
theorem handleFor_holds (state : ProcessState) (held : w.1.Holds g e) :
    ((Registry.handleFor g (some e) state).run c.routing w).2.1.Holds g e := by
  have only : (Registry.handleFor g (some e) state).Only Unadopting := by
    unfold Registry.handleFor
    split
    · refine .bind (.perform trivial fun _ => .done) fun _ => .ensure ?_
        (.perform trivial fun _ => .done)
      refine .bind (.perform trivial fun _ => .done) fun cell => ?_
      split
      · exact .pure
      · split
        · exact only_exceptNelix (.bind (unadopting_refresh _) fun _ => .pure) fun _ => .pure
        · exact .pure
    · exact .pure
  exact only.run_keeps (fun w : Cell × ℕ => w.1.Holds g e) holds_keeps held

/-! ### Where a request goes -/

/-- A request is sent to the daemon of the session's own epoch, or to none. -/
def SentHome (g e : String) (sent : Except Raised Destination) : Prop :=
  ∀ a, sent = .ok (.generation a) → a.isOf g (some e) = true

theorem fallBack_home (held : w.1.Holds g e) :
    SentHome g e ((SessionForward.fallBack at_).run c.routing w).1 := by
  intro a sent
  rw [SessionForward.fallBack, Prog.run_bind] at sent
  generalize ran : (Registry.active at_).run c.routing w = answered at sent
  obtain ⟨x | b, w'⟩ := answered
  · cases sent
  · cases sent
    exact active_of_holds held ran

/-- The dispatch of either plane. -/
def SessionForward.dispatched (at_ : Deployment) (request : SessionRequest)
    (found : Option GenerationState) : GenRoutine Destination :=
  match request with
  | .owner _ route => SessionForward.dispatch at_ route found
  | .secret => SessionForward.dispatchSecret at_ found

theorem target_run (wellFormed : request.check sid = .ok ()) :
    (f.target at_ sid request).run c.routing w =
      (f.lookup sid >>= SessionForward.dispatched at_ request).run c.routing w := by
  rw [SessionForward.target, wellFormed, Prog.ok_bind]
  cases request <;> rfl

theorem dispatched_none : SessionForward.dispatched at_ request none =
    SessionForward.fallBack at_ := by
  cases request <;> rfl

/-- Where the epoch serves and a restart is not refused, the handle decides. -/
theorem dispatched_serving (state : GenerationState) (serving : state.processState = .serving)
    (goes : request.restarts → state.lifecycleState ≠ .draining) :
    SessionForward.dispatched at_ request (some state) =
      match state.handle with
      | some a => pure (.generation a)
      | none => SessionForward.fallBack at_ := by
  cases request with
  | owner ownerId route =>
    have allowed : ¬ (route = .restart ∧ state.lifecycleState = .draining ∧
        state.processState = .serving) := by
      rintro ⟨rfl, draining, -⟩
      exact goes trivial draining
    rw [SessionForward.dispatched, SessionForward.dispatch, if_neg allowed,
      if_neg (not_not_intro serving)]
  | secret =>
    rw [SessionForward.dispatched, SessionForward.dispatchSecret]
    split
    · rfl
    · rw [if_neg (not_not_intro serving)]

/-- What the rows settle is not forwarded. -/
theorem dispatched_settled {state : GenerationState}
    (settled : (state.processState ≠ .serving ∧ state.handle = none) ∨
      (request.restarts ∧ state.lifecycleState = .draining ∧ state.processState = .serving)) :
    SentHome g e ((SessionForward.dispatched at_ request (some state)).run c.routing w).1 := by
  intro a sent
  rcases settled with ⟨ended, none⟩ | ⟨restarts, draining, serving⟩
  · cases request with
    | owner ownerId route =>
      rw [SessionForward.dispatched, SessionForward.dispatch, if_neg fun all => ended all.2.2,
        if_pos ended] at sent
      cases sent
    | secret =>
      rw [SessionForward.dispatched, SessionForward.dispatchSecret, none] at sent
      dsimp only at sent
      rw [if_pos ended] at sent
      cases sent
  · cases request with
    | owner ownerId route =>
      cases route with
      | restart =>
        rw [SessionForward.dispatched, SessionForward.dispatch,
          if_pos ⟨rfl, draining, serving⟩] at sent
        cases sent
      | _ => cases restarts
    | secret => cases restarts

/-- The state that the rows come to where the session's epoch is not adopted. -/
theorem generationState_bare {rows : GenerationRow × EpochRecord}
    (bare : rows.2.processState ≠ .serving ∨ ¬ w.1.Holds g e) :
    (exceptNelix (do
      let state ← Registry.generationState g (some e) rows
      pure (some state))
      fun _ => pure none).run c.routing w =
      (.ok (some ⟨rows.2.processState, rows.1.lifecycleState, rows.1.capabilitySnapshot, none⟩),
        w) := by
  rw [exceptNelix, Prog.run_rescue, Prog.run_bind, Registry.generationState, Prog.run_bind,
    handleFor_bare bare]
  rfl

/-- A session's own epoch is adopted: the request goes there or nowhere. -/
theorem adopted_home (ledger : f.ledger = some getSessionGeneration)
    (bound : ∀ pair, getSessionGeneration sid = .ok pair → pair = (g, some e))
    (held : w.1.Holds g e) :
    SentHome g e ((f.lookup sid >>= SessionForward.dispatched at_ request).run c.routing w).1 := by
  rw [Prog.run_bind]
  obtain ⟨reads, read⟩ : ∃ reads, (readRows getSessionGeneration sid).run c.routing w = reads :=
    ⟨_, rfl⟩
  have still : reads.2.1.Holds g e := (readRows_cell read).symm ▸ held
  rcases lookup_cases read ledger bound with ⟨error, -, looked⟩ | ⟨x, -, -, looked⟩ |
    ⟨rows, -, looked⟩
  -- A read refused with a `NelixError` leads to the fallback, and the cell still holds the epoch.
  · rw [looked]
    dsimp only
    rw [dispatched_none]
    exact fallBack_home still
  · rw [looked]
    intro _ sent
    cases sent
  · rw [looked, exceptNelix, Prog.run_rescue, Prog.run_bind, Registry.generationState,
      Prog.run_bind]
    have kept := handleFor_holds (c := c) rows.2.processState still
    have own : ∀ a w', (Registry.handleFor g (some e) rows.2.processState).run c.routing reads.2 =
        (.ok (some a), w') → a.isOf g (some e) = true := fun a w' ran => handleFor_own ran
    have bare : rows.2.processState ≠ .serving →
        (Registry.handleFor g (some e) rows.2.processState).run c.routing reads.2 =
          (.ok none, reads.2) := fun ended => handleFor_bare (.inl ended)
    generalize (Registry.handleFor g (some e) rows.2.processState).run c.routing reads.2 =
      answered at kept own bare ⊢
    obtain ⟨x | handle, w'⟩ := answered
    · cases x with
      | nelix error =>
        show SentHome g e ((SessionForward.dispatched at_ request none).run c.routing w').1
        rw [dispatched_none]
        exact fallBack_home kept
      | _ =>
        intro _ sent
        cases sent
    · show SentHome g e ((SessionForward.dispatched at_ request (some ⟨_, _, _, handle⟩)).run
        c.routing w').1
      by_cases ended : rows.2.processState ≠ .serving
      -- The handle is looked for only while the epoch serves.
      · have none : handle = none := by
          have empty := bare ended
          simp only [Prod.mk.injEq, Except.ok.injEq] at empty
          exact empty.1
        exact dispatched_settled (.inl ⟨ended, none⟩)
      · have serving : rows.2.processState = .serving := not_not.mp ended
        by_cases goes : request.restarts → rows.1.lifecycleState ≠ .draining
        · rw [dispatched_serving _ serving goes]
          cases handle with
          | none => exact fallBack_home kept
          | some a =>
            intro a' sent
            cases sent
            exact own a w' rfl
        · obtain ⟨restarts, draining⟩ := Classical.not_imp.mp goes
          exact dispatched_settled (.inr ⟨restarts, not_not.mp draining, serving⟩)

/-- What the reads settle is sent to no daemon but the session's own. -/
theorem settled_home (ledger : f.ledger = some getSessionGeneration)
    (bound : ∀ pair, getSessionGeneration sid = .ok pair → pair = (g, some e))
    (absent : ¬ w.1.Holds g e)
    (settled : Settled request ((readRows getSessionGeneration sid).run c.routing w).1) :
    SentHome g e ((f.lookup sid >>= SessionForward.dispatched at_ request).run c.routing w).1 := by
  rw [Prog.run_bind]
  obtain ⟨reads, read⟩ : ∃ reads, (readRows getSessionGeneration sid).run c.routing w = reads :=
    ⟨_, rfl⟩
  have still : ¬ reads.2.1.Holds g e := (readRows_cell read).symm ▸ absent
  rw [read] at settled
  rcases lookup_cases read ledger bound with ⟨error, raised, -⟩ | ⟨x, -, -, looked⟩ |
    ⟨rows, answered, looked⟩
  · rw [raised] at settled
    cases settled with
    | raised _ other => exact absurd rfl (other error)
  · rw [looked]
    exact nofun
  · rw [looked, generationState_bare (.inr still)]
    rw [answered] at settled
    refine dispatched_settled ?_
    cases settled with
    | ended _ state => exact .inl ⟨state, rfl⟩
    | drains _ restarts state =>
      by_cases serving : rows.2.processState = .serving
      · exact .inr ⟨restarts, state, serving⟩
      · exact .inl ⟨serving, rfl⟩

/-- Whatever is neither adopted nor settled falls back. -/
theorem unsettled_falls (ledger : f.ledger = some getSessionGeneration)
    (bound : ∀ pair, getSessionGeneration sid = .ok pair → pair = (g, some e))
    (absent : ¬ w.1.Holds g e)
    (unsettled : ¬ Settled request ((readRows getSessionGeneration sid).run c.routing w).1) :
    (f.lookup sid >>= SessionForward.dispatched at_ request).run c.routing w =
      (SessionForward.fallBack at_).run c.routing
        ((readRows getSessionGeneration sid).run c.routing w).2 := by
  rw [Prog.run_bind]
  obtain ⟨reads, read⟩ : ∃ reads, (readRows getSessionGeneration sid).run c.routing w = reads :=
    ⟨_, rfl⟩
  have still : ¬ reads.2.1.Holds g e := (readRows_cell read).symm ▸ absent
  rw [read] at unsettled ⊢
  rcases lookup_cases read ledger bound with ⟨error, -, looked⟩ | ⟨x, other, raised, -⟩ |
    ⟨rows, answered, looked⟩
  · rw [looked]
    exact congrArg (fun p => p.run c.routing reads.2) dispatched_none
  · exact absurd (raised ▸ .raised x other) unsettled
  · rw [looked, generationState_bare (.inr still)]
    rw [answered] at unsettled
    have serving : rows.2.processState = .serving :=
      not_not.mp fun ended => unsettled (.ended rows ended)
    have goes : request.restarts → rows.1.lifecycleState ≠ .draining :=
      fun restarts draining => unsettled (.drains rows restarts draining)
    exact congrArg (fun p => p.run c.routing reads.2)
      (dispatched_serving ⟨_, _, _, none⟩ serving goes)

/-- The fallback sends the request home where `active()` yields no other. -/
theorem sentHome_fallBack {w : Cell × ℕ} :
    SentHome g e ((SessionForward.fallBack at_).run c.routing w).1 ↔
      ∀ a, ((Registry.active at_).run c.routing w).1 = .ok a → a.isOf g (some e) = true := by
  rw [SessionForward.fallBack, Prog.run_bind]
  generalize (Registry.active at_).run c.routing w = answered
  obtain ⟨x | b, w'⟩ := answered
  · exact iff_of_true (fun a sent => by cases sent) fun a found => by cases found
  · constructor
    · rintro home a ⟨⟩
      exact home _ rfl
    · rintro own a ⟨⟩
      exact own _ rfl

/-- A request reaches no daemon but that of its session's own epoch exactly where the registry has
adopted that epoch, the reads settle the request, another adopted generation is not to be reached, or
nobody is adopted and no other is found. -/
theorem forwarded_home_iff (f : SessionForward) (at_ : Deployment) (c : Replies)
    (getSessionGeneration : String → Outcome (String × Option String))
    (ledger : f.ledger = some getSessionGeneration) (request : SessionRequest) (sid g e : String)
    (bound : ∀ pair, getSessionGeneration sid = .ok pair → pair = (g, some e)) (w : Cell × ℕ) :
    SentHome g e ((f.target at_ sid request).run c.routing w).1 ↔
      Homeward at_ c getSessionGeneration sid g e request w := by
  by_cases wellFormed : request.check sid = .ok ()
  · rw [target_run wellFormed]
    by_cases held : w.1.Holds g e
    · exact ⟨fun _ => .adopted held, fun _ => adopted_home ledger bound held⟩
    by_cases settled : Settled request ((readRows getSessionGeneration sid).run c.routing w).1
    · exact ⟨fun _ => .settled settled, fun _ => settled_home ledger bound held settled⟩
    -- What is left is sent to whichever generation is active.
    rw [unsettled_falls ledger bound held settled, sentHome_fallBack]
    have cell : ((readRows getSessionGeneration sid).run c.routing w).2.1 = w.1 := readRows_cell rfl
    have still : ¬ ((readRows getSessionGeneration sid).run c.routing w).2.1.Holds g e :=
      cell.symm ▸ held
    have outcome := active_run at_ c ((readRows getSessionGeneration sid).run c.routing w).2
    rw [cell] at outcome
    cases active : w.1.active with
    | some other =>
      rw [active] at outcome
      rw [outcome]
      constructor
      · refine fun home => .unreachable other active fun b refreshed => ?_
        have apart := active_of_other (cell.symm ▸ active) still refreshed
        exact absurd (home b refreshed) (Bool.eq_false_iff.mp apart)
      · intro homeward a refreshed
        cases homeward with
        | malformed refused => exact absurd wellFormed refused
        | adopted here => exact absurd here held
        | settled reads => exact absurd reads settled
        | unreachable _ same fails =>
          cases active.symm.trans same
          exact absurd refreshed (fails a)
        | created nobody => cases active.symm.trans nobody
    | none =>
      rw [active] at outcome
      rw [outcome]
      constructor
      · exact .created active
      · intro homeward
        cases homeward with
        | malformed refused => exact absurd wellFormed refused
        | adopted here => exact absurd here held
        | settled reads => exact absurd reads settled
        | unreachable _ someone => cases active.symm.trans someone
        | created _ own => exact own
  · refine ⟨fun _ => .malformed wellFormed, fun _ => ?_⟩
    rw [SessionForward.target]
    cases refused : request.check sid with
    | ok => exact absurd refused wellFormed
    | error x => exact nofun

/-! ### A session of a draining generation -/

/-- The pair a request is sent to. -/
def sentTo : Except Raised Destination → Option (String × String)
  | .ok (.generation a) => some (a.generationId, a.epoch)
  | _ => none

/-- The ledger knows the session in the first epoch. -/
def drainedForward : SessionForward := ⟨some fun _ => .ok (sampleGeneration, some firstEpoch)⟩

/-- The store of an activation that has drained the first generation; the next one is well. -/
def drainedReplies : Replies := fun n e =>
  match e with
  | .ask query => (machine.after {} drainedCalls).answer query
  | .liveLockHolder _ => .ok (some ⟨⟨12, some "fp"⟩, some "/n.sock"⟩)
  | e => livingDaemon n e

/-- A message for the session, by the secret plane. -/
def drainedMessage : Except Raised Destination × (Cell × ℕ) :=
  (drainedForward.target sampleDeployment sampleId.value .secret).run drainedReplies.routing
    (drainedBoot.cell, 0)

theorem forwarded_home_iff_drained :
    SentHome sampleGeneration firstEpoch drainedMessage.1 ↔
      Homeward sampleDeployment drainedReplies (fun _ => .ok (sampleGeneration, some firstEpoch))
        sampleId.value sampleGeneration firstEpoch .secret (drainedBoot.cell, 0) :=
  forwarded_home_iff drainedForward sampleDeployment drainedReplies _ rfl .secret _ _ _
    (fun _ bound => (Except.ok.inj bound).symm) _

/-- The message reaches the next generation, which does not have the session; so does an answer. -/
theorem drained_sent_elsewhere :
    sentTo drainedMessage.1 = some (nextGeneration, secondEpoch) ∧
      sentTo ((drainedForward.target sampleDeployment sampleId.value
        (.owner "owner" .respond)).run drainedReplies.routing (drainedBoot.cell, 0)).1 =
          some (nextGeneration, secondEpoch) ∧
      ¬ SentHome sampleGeneration firstEpoch drainedMessage.1 := by
  have sent : sentTo drainedMessage.1 = some (nextGeneration, secondEpoch) := by decide +kernel
  refine ⟨sent, by decide +kernel, fun home => ?_⟩
  rcases reached : drainedMessage.1 with x | a | _
  · rw [reached] at sent
    cases sent
  · rw [reached, sentTo, Option.some.injEq, Prod.mk.injEq] at sent
    have own := home a reached
    rw [Adopted.isOf, sent.1] at own
    revert own
    have apart : nextGeneration ≠ sampleGeneration := by decide
    simp [apart]
  · rw [reached] at sent
    cases sent

/-! ### What the archive tells another owner -/

/-- The two archives differ in nothing but what they hold of the session: its archived result and
its transcript. -/
structure Archive.DiffersIn (sid : String) (archive archive' : Archive) : Prop where
  share : archive'.share = archive.share
  transcript : ∀ other, other ≠ sid → archive'.transcript other = archive.transcript other
  store : ∃ db terminal, archive.store = some db ∧
    archive'.store = some { db with terminal := terminal } ∧
    ∀ other, other ≠ sid → terminal.find? other = db.terminal.find? other

/-- The archive with another transcript of the session. -/
def Archive.withTranscript (archive : Archive) (sid : String) (file : Option (List Json)) : Archive :=
  { archive with
    transcript := fun other => if other = sid then file else archive.transcript other }

/-- The route asks for a page of the dialog, with parameters that `page` accepts. -/
def OwnerRoute.pages : OwnerRoute → Prop
  | .dialog offset limit =>
    (∀ param, offset = some param → ∃ n, param = .int n ∧ 0 ≤ n) ∧
      ∀ param, limit = some param → ∃ n, param = .int n ∧ 0 < n
  | _ => False

section Archived

variable {archive archive' : Archive} {db : Db} {start : StartRow} {ownerId : String}
  {route : OwnerRoute}

theorem withTranscript_differs (kept : archive.store = some db) (file : Option (List Json)) :
    archive.DiffersIn sid (archive.withTranscript sid file) :=
  ⟨rfl, fun _ other => if_neg other, db, db.terminal, kept, kept, fun _ _ => rfl⟩

/-- The store refuses a result to anyone but its owner. -/
theorem status_unsupported (kept : archive.store = some db) (found : db.findStart sid = some start)
    (other : start.ownerId ≠ ownerId) :
    archive.routeArchived sid ownerId .status = unsupported := by
  have refused : ∃ error, db.getTerminal sid ownerId = .error (.nelix error) := by
    rw [Db.getTerminal]
    cases row : db.terminal.find? sid with
    | none => exact ⟨_, rfl⟩
    | some row =>
      refine ⟨⟨.ownerMismatch, "session belongs to another owner"⟩, ?_⟩
      have mismatch : require (start.ownerId = ownerId) .ownerMismatch
          "session belongs to another owner" = refuse .ownerMismatch
            "session belongs to another owner" := if_neg other
      simp [demand, found, mismatch, refuse, bind, Except.bind]
  obtain ⟨error, refused⟩ := refused
  rw [Archive.routeArchived, kept]
  dsimp only
  rw [refused]

theorem compared_ok {param : Param} {n : ℤ} : param.compared = .ok n ↔ param = .int n := by
  cases param with
  | text value => simp [Param.compared]
  | int value => simp [Param.compared]

/-- A transcript that is there is paged exactly with parameters that are accepted. -/
theorem dialogReply_isOk {offset limit : Option Param} {records : List Daemon.DialogRecord}
    (read : DialogReader.read (archive.transcript sid) = .ok ⟨some records⟩) :
    (∃ page, archive.dialogReply sid offset limit = .ok (some page)) ↔
      (OwnerRoute.dialog offset limit).pages := by
  have paged : archive.dialogReply sid offset limit = (do
      let offset ← (offset.getD (.int 0)).compared
      let limit ← limit.mapM Param.compared
      let page ← dialogPage archive.share records true offset limit
      pure (some (Archive.pageReply page))) := by
    rw [Archive.dialogReply, read]
    rfl
  rw [paged]
  simp only [bind_ok, pure, Except.pure, Except.ok.injEq, Option.some.injEq]
  constructor
  · rintro ⟨_, o, starts, most, bounded, page, paged, -⟩
    obtain ⟨start, positive⟩ := Daemon.dialogPage_isOk.mp ⟨page, paged⟩
    refine ⟨?_, ?_⟩
    · rintro param rfl
      exact ⟨o, compared_ok.mp starts, start⟩
    · rintro param rfl
      cases compared : param.compared with
      | error x =>
        rw [Option.mapM_some, compared] at bounded
        cases bounded
      | ok n =>
        rw [Option.mapM_some, compared] at bounded
        cases bounded
        exact ⟨n, compared_ok.mp compared, positive n rfl⟩
  · rintro ⟨starts, bounded⟩
    have first : ∃ o, (offset.getD (.int 0)).compared = .ok o ∧ 0 ≤ o := by
      cases offset with
      | none => exact ⟨0, rfl, le_rfl⟩
      | some param =>
        obtain ⟨n, rfl, start⟩ := starts param rfl
        exact ⟨n, rfl, start⟩
    have last : ∃ most, limit.mapM Param.compared = .ok most ∧ ∀ n, most = some n → 0 < n := by
      cases limit with
      | none => exact ⟨none, rfl, nofun⟩
      | some param =>
        obtain ⟨n, rfl, positive⟩ := bounded param rfl
        exact ⟨some n, rfl, fun _ same => Option.some.inj same ▸ positive⟩
    obtain ⟨o, starts, start⟩ := first
    obtain ⟨most, bounded, positive⟩ := last
    obtain ⟨page, paged⟩ : ∃ page, dialogPage archive.share records true o most = .ok page :=
      Daemon.dialogPage_isOk.mpr ⟨start, positive⟩
    exact ⟨_, o, starts, most, bounded, page, paged, rfl⟩

/-- A page is of a transcript that could be read. -/
theorem read_of_reply {offset limit : Option Param} {page : Json}
    (replied : archive.dialogReply sid offset limit = .ok (some page)) :
    ∃ records, DialogReader.read (archive.transcript sid) = .ok ⟨some records⟩ := by
  simp only [Archive.dialogReply, bind_ok] at replied
  obtain ⟨⟨_ | records⟩, read, replied⟩ := replied
  · cases replied
  · exact ⟨records, read⟩

/-- What is no page is unsupported to another owner. -/
theorem routeArchived_other (kept : archive.store = some db)
    (found : db.findStart sid = some start) (other : start.ownerId ≠ ownerId)
    (unread : ¬ route.pages) : archive.routeArchived sid ownerId route = unsupported := by
  cases route with
  | status => exact status_unsupported kept found other
  | dialog offset limit =>
    rw [Archive.routeArchived]
    split
    · rename_i replied
      obtain ⟨records, read⟩ := read_of_reply replied
      exact absurd ((dialogReply_isOk read).mp ⟨_, replied⟩) unread
    · rfl
    · rfl
  | _ => rfl

/-- A page is sent to whoever asks for it. -/
theorem routeArchived_pages {records : List Daemon.DialogRecord} (pages : route.pages)
    (read : DialogReader.read (archive.transcript sid) = .ok ⟨some records⟩) :
    ∃ page, archive.routeArchived sid ownerId route = .ok (200, page) := by
  cases route with
  | dialog offset limit =>
    obtain ⟨page, replied⟩ := (dialogReply_isOk read).mpr pages
    refine ⟨page, ?_⟩
    rw [Archive.routeArchived, replied]
  | _ => cases pages

/-- There is no page of a transcript that is missing. -/
theorem routeArchived_missing (pages : route.pages) (missing : archive.transcript sid = none) :
    archive.routeArchived sid ownerId route = unsupported := by
  cases route with
  | dialog offset limit =>
    rw [Archive.routeArchived, Archive.dialogReply, missing]
    rfl
  | _ => cases pages

/-- A session of an epoch that serves no longer is answered for by the archive. -/
theorem handle_archived (ledger : f.ledger = some getSessionGeneration)
    (bound : ∀ pair, getSessionGeneration sid = .ok pair → pair = (g, some e))
    {rows : GenerationRow × EpochRecord}
    (read : ((readRows getSessionGeneration sid).run c.routing w).1 = .ok rows)
    (ended : rows.2.processState ≠ .serving) (live : Adopted → LiveRead)
    (wellFormed : (SessionRequest.owner ownerId route).check sid = .ok ()) :
    ((f.handle at_ archive live sid (.owner ownerId route)).run c.routing w).1 =
      archive.routeArchived sid ownerId route := by
  obtain ⟨reads, answered⟩ : ∃ reads, (readRows getSessionGeneration sid).run c.routing w = reads :=
    ⟨_, rfl⟩
  rw [answered] at read
  have reached : (f.target at_ sid (.owner ownerId route)).run c.routing w =
      (.ok .archive, reads.2) := by
    rw [target_run wellFormed, Prog.run_bind]
    rcases lookup_cases answered ledger bound with ⟨error, raised, -⟩ | ⟨x, -, raised, -⟩ |
      ⟨rows', found, looked⟩
    · rw [read] at raised
      cases raised
    · rw [read] at raised
      cases raised
    · rw [read, Except.ok.injEq] at found
      subst found
      rw [looked, generationState_bare (.inl ended)]
      dsimp only [SessionForward.dispatched, SessionForward.dispatch]
      rw [if_neg fun all => ended all.2.2, if_pos ended]
      rfl
  rw [SessionForward.handle, Prog.run_bind, reached]
  rfl

/-- What the archive answers to another owner than the session's tells nothing about the session
exactly where it is not asked for a page of the dialog. -/
theorem archived_blind_iff (f : SessionForward) (at_ : Deployment) (c : Replies)
    (getSessionGeneration : String → Outcome (String × Option String))
    (ledger : f.ledger = some getSessionGeneration) (sid g e : String)
    (bound : ∀ pair, getSessionGeneration sid = .ok pair → pair = (g, some e)) (w : Cell × ℕ)
    (rows : GenerationRow × EpochRecord)
    (read : ((readRows getSessionGeneration sid).run c.routing w).1 = .ok rows)
    (dead : rows.2.processState = .dead) (live : Adopted → LiveRead) (archive : Archive) (db : Db)
    (kept : archive.store = some db) (start : StartRow) (found : db.findStart sid = some start)
    (ownerId : String) (other : start.ownerId ≠ ownerId) (route : OwnerRoute) :
    let response (archive : Archive) :=
      ((f.handle at_ archive live sid (.owner ownerId route)).run c.routing w).1
    (∀ archive', archive.DiffersIn sid archive' → response archive' = response archive) ↔
      ¬ ((SessionRequest.owner ownerId route).check sid = .ok () ∧ route.pages) := by
  intro response
  have ended : rows.2.processState ≠ .serving := by simp [dead]
  by_cases wellFormed : (SessionRequest.owner ownerId route).check sid = .ok ()
  · have answers : ∀ archive, response archive = archive.routeArchived sid ownerId route :=
      fun archive => handle_archived ledger bound read ended live wellFormed
    constructor
    · rintro blind ⟨-, pages⟩
      have missing := blind _ (withTranscript_differs kept none)
      have empty := blind _ (withTranscript_differs kept (some []))
      have absent : (archive.withTranscript sid none).transcript sid = none := if_pos rfl
      rw [← missing, answers, answers, routeArchived_missing pages absent] at empty
      have there : DialogReader.read ((archive.withTranscript sid (some [])).transcript sid) =
          .ok ⟨some []⟩ := by
        rw [Archive.withTranscript]
        dsimp only
        rw [if_pos rfl]
        rfl
      obtain ⟨page, sent⟩ := routeArchived_pages pages there
      rw [sent] at empty
      cases empty
    · intro unread archive' differs
      obtain ⟨db', terminal, kept', stored, -⟩ := differs.store
      rw [kept, Option.some.injEq] at kept'
      subst kept'
      have unpaged : ¬ route.pages := fun pages => unread ⟨wellFormed, pages⟩
      rw [answers, answers, routeArchived_other kept found other unpaged,
        routeArchived_other stored found other unpaged]
  · refine iff_of_true (fun archive' _ => ?_) fun both => wellFormed both.1
    have refused : ∃ x, ∀ archive, response archive = .error x := by
      cases check : (SessionRequest.owner ownerId route).check sid with
      | ok => exact absurd check wellFormed
      | error x =>
        refine ⟨x, fun archive => ?_⟩
        have stopped : f.target at_ sid (.owner ownerId route) = .done (.error x) := by
          rw [SessionForward.target, check]
          rfl
        have composed : response archive =
            ((f.handle at_ archive live sid (.owner ownerId route)).run c.routing w).1 := rfl
        rw [composed, SessionForward.handle, stopped]
        rfl
    obtain ⟨x, refused⟩ := refused
    rw [refused, refused]

end Archived

/-! ### A session of a dead epoch -/

/-- The session has ended, its result is archived, and its epoch is dead. -/
def archivedStore : Db :=
  machine.after {}
    ([.createGeneration sampleGeneration (some "build-1") .active none (.finite 1),
        .insertEpoch firstEpoch sampleGeneration none (.finite 1),
        .casEpochServing sampleGeneration firstEpoch none none] ++
      endedOnFirst ++ [.reconcileEpochDead sampleGeneration firstEpoch])

def archivedReplies : Replies := fun n e =>
  match e with
  | .ask query => archivedStore.answer query
  | e => livingDaemon n e

/-- The archive with this line in the session's transcript. -/
def archiveOf (line : String) : Archive where
  store := some archivedStore
  transcript _ := some [.object [("speaker", .text "agent"), ("text", .text line)]]
  share limit := 3 * limit / 5

/-- What another owner is answered who asks for the dialog. -/
def dialogFor (archive : Archive) : Except Raised (ℤ × Json) :=
  ((drainedForward.handle sampleDeployment archive (fun _ => .connectError "refused")
    sampleId.value (.owner "intruder" (.dialog none none))).run archivedReplies.routing ({}, 0)).1

/-- The text of the page that is sent. -/
def textOf : Except Raised (ℤ × Json) → Option String
  | .ok (_, reply) =>
    match reply.get? "text" with
    | some (.text text) => some text
    | _ => none
  | .error _ => none

theorem archivedStore_rows : ∃ rows, ((readRows (fun _ => .ok (sampleGeneration, some firstEpoch))
      sampleId.value).run archivedReplies.routing ({}, 0)).1 = .ok rows ∧
    rows.2.processState = .dead := by
  have dead : ((readRows (fun _ => .ok (sampleGeneration, some firstEpoch)) sampleId.value).run
      archivedReplies.routing ({}, 0)).1.toOption.map (·.2.processState) = some .dead := by
    decide +kernel
  generalize ((readRows (fun _ => .ok (sampleGeneration, some firstEpoch)) sampleId.value).run
    archivedReplies.routing ({}, 0)).1 = read at dead ⊢
  obtain _ | rows := read
  · cases dead
  · exact ⟨rows, rfl, Option.some.inj dead⟩

theorem archivedStore_owner : ∃ start, archivedStore.findStart sampleId.value = some start ∧
    start.ownerId = "owner" := by
  have owned : (archivedStore.findStart sampleId.value).map StartRow.ownerId = some "owner" := by
    decide +kernel
  exact Option.map_eq_some_iff.mp owned

theorem archived_blind_iff_intruder :
    (∀ archive', (archiveOf "alpha").DiffersIn sampleId.value archive' →
        dialogFor archive' = dialogFor (archiveOf "alpha")) ↔
      ¬ ((SessionRequest.owner "intruder" (.dialog none none)).check sampleId.value = .ok () ∧
        (OwnerRoute.dialog none none).pages) := by
  obtain ⟨rows, read, dead⟩ := archivedStore_rows
  obtain ⟨start, found, owned⟩ := archivedStore_owner
  have other : start.ownerId ≠ "intruder" := by
    rw [owned]
    decide
  exact archived_blind_iff drainedForward sampleDeployment archivedReplies _ rfl sampleId.value
    sampleGeneration firstEpoch (fun _ bound => (Except.ok.inj bound).symm) ({}, 0) rows read dead
    (fun _ => .connectError "refused") (archiveOf "alpha") archivedStore rfl start found "intruder"
    other (.dialog none none)

/-- Another owner reads the transcript of a session whose epoch is dead. -/
theorem archived_dialog_leaks :
    (archivedStore.findStart sampleId.value).map StartRow.ownerId = some "owner" ∧
      (archiveOf "alpha").DiffersIn sampleId.value
        ((archiveOf "alpha").withTranscript sampleId.value
          ((archiveOf "beta").transcript sampleId.value)) ∧
      textOf (dialogFor (archiveOf "alpha")) = some "alpha" ∧
      textOf (dialogFor ((archiveOf "alpha").withTranscript sampleId.value
        ((archiveOf "beta").transcript sampleId.value))) = some "beta" :=
  ⟨by decide +kernel, withTranscript_differs rfl _, by decide +kernel, by decide +kernel⟩

end Nelix.Router
