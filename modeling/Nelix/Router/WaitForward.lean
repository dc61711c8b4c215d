import Nelix.Router.SessionForward

/-!
# The orchestration wait

`GET /wait` of the router: the sessions come from the ledger, the daemon from the registry and the
positions from the cursor. The wait asks one daemon, that of the active generation, for all of them.

## Main results

`watched_iff`: a wait that stays silent has asked each live session's own daemon exactly where that
daemon is the adopted one for all of them and a forward went through.
-/
namespace Nelix.Router

open Contracts Core Store GenRoutine

/-! ### What a wait answers -/

/-- What is sent back; a cursor stands for its token. -/
inductive WaitAnswer
  | emptyOrchestration
  | cursorExpired
  | boardChanged
  | unownable
  | archive (cursor : Cursor)
  | event (evt : Json) (cursor : Cursor)
  /-- `{"event": None, "cursor": ..}` -/
  | quiet (cursor : Cursor)

/-- A wait that reached a daemon. -/
structure WaitRequest where
  gen : Adopted
  sessions : List String
  afterSeq : ℕ

/-- Where a wait stands: what it answers, none while it blocks, and the waits that have reached a
daemon. -/
structure Waited where
  outcome : Outcome (Option WaitAnswer)
  asked : List WaitRequest

/-- `WaitForward`: the archive's epoch is set where there is a store; `decode` reads a token under
the router's epoch and the topology. -/
structure WaitForward where
  routerEpoch : String
  archiveEpoch : Option ℤ
  decode : String → String → ℕ → Outcome Cursor

/-- One turn of the loop: the look at the counter, whether there is time left, and what becomes of
the forward, none while the daemon holds it. -/
structure WaitTurn where
  counter : Except ReadFault ℕ
  inTime : Bool
  forwarded : Option LiveRead

/-- What a wait meets: `GET /status` of the generation, the first look at the counter, the turns of
the loop, and the one forward where there is no loop. -/
structure WaitReads where
  current : LiveRead
  first : Except ReadFault ℕ
  turns : List WaitTurn
  single : Option LiveRead

/-- The fault is no transient one. -/
def ReadFault.lasting? : ReadFault → Option NelixError
  | .sqlite | .os => none
  | .refused e => if e.code = .storeUnavailable then none else some e

/-- `_healthy_int_cursor`: a bool is no cursor. -/
def healthyIntCursor? : Option Json → Option ℕ
  | some (.int value) => if 0 ≤ value then some value.toNat else none
  | _ => none

/-! ### The stages of a wait -/

/-- `_current_seq` -/
def currentSeq (read : LiveRead) : Outcome ℕ := do
  let (status, body) ← relay read
  match if status = 200 then healthyIntCursor? (body.get? "cursor") else none with
  | some seq => pure seq
  | none =>
    refuse .generationUnavailable
      "could not read the generation's current cursor to start the wait"

/-- `_wait_on_generation` from the daemon's reply on. -/
def waitOnGeneration (gen : Adopted) (cursor : Cursor) (read : LiveRead) : Outcome WaitAnswer := do
  let (status, body) ← relay read
  if status = 404 then pure .unownable
  else if status ≠ 200 ∨ body.isObject = false then
    refuse .generationUnavailable s!"generation /wait answered {status}, not a waitable reply"
  else if (body.get? "cursor_expired").any Json.truthy then pure .cursorExpired
  else
    match body.get? "event" with
    | none | some .null => pure (.quiet cursor)
    | some evt =>
      match healthyIntCursor? (evt.get? "seq") with
      | none => refuse .generationUnavailable "generation /wait event carried no usable seq"
      | some seq => do
        let advanced ← cursor.advance gen.generationId gen.epoch seq
        pure (.event evt advanced)

/-- The forward has reached the daemon. -/
def delivered : Option LiveRead → Bool
  | some (.connectError _) => false
  | _ => true

namespace WaitForward

/-- The cursor to start from: the token's, or a fresh one without a token. -/
def startCursor (f : WaitForward) (token : String) (topology : ℕ) : Outcome (WaitAnswer ⊕ Cursor) :=
  if token ≠ "" then
    match f.decode token f.routerEpoch topology with
    | .ok cursor => .ok (.inr cursor)
    | .error (.nelix e) =>
      if e.code = .cursorExpired then .ok (.inl .cursorExpired)
      else if e.code = .boardChanged then .ok (.inl .boardChanged)
      else .error (.nelix e)
    | .error raised => .error raised
  else (newCursor f.routerEpoch topology).map .inr

/-- The position to wait from: the generation's component, or its current one. -/
def position (gen : Adopted) (cursor : Cursor) (current : LiveRead) :
    Outcome (WaitAnswer ⊕ (Cursor × ℕ)) :=
  match cursor.positions.get? gen.generationId with
  | none => do
    let afterSeq ← currentSeq current
    let cursor ← cursor.advance gen.generationId gen.epoch afterSeq
    pure (.inr (cursor, afterSeq))
  | some (epoch, afterSeq) =>
    if epoch ≠ gen.epoch then .ok (.inl .cursorExpired) else .ok (.inr (cursor, afterSeq))

/-- The archive's component; none where the archive is not polled. -/
def archivePosition (f : WaitForward) (cursor : Cursor) (first : Except ReadFault ℕ) :
    Outcome (WaitAnswer ⊕ (Cursor × Option (ℤ × ℕ))) :=
  match f.archiveEpoch with
  | none => .ok (.inr (cursor, none))
  | some archiveEpoch =>
    match cursor.archive with
    | some (epoch, seq) =>
      if epoch ≠ archiveEpoch then .ok (.inl .cursorExpired)
      else .ok (.inr (cursor, some (archiveEpoch, seq)))
    | none =>
      match first with
      | .ok seq => .ok (.inr (cursor.advanceArchive archiveEpoch seq, some (archiveEpoch, seq)))
      | .error fault =>
        match fault.lasting? with
        | some e => .error (.nelix e)
        | none => .ok (.inr (cursor, none))

/-- A turn after its look at the archive: `later` is what the turns after it come to. -/
def forwardIn (request : WaitRequest) (cursor : Cursor) (turn : WaitTurn) (later : Waited) : Waited :=
  if turn.inTime = false then ⟨.ok (some (.quiet cursor)), []⟩
  else
    let here := if delivered turn.forwarded then [request] else []
    match turn.forwarded.map (waitOnGeneration request.gen cursor) with
    | none => ⟨.ok none, here⟩
    | some (.error (.nelix e)) =>
      if e.code ≠ .generationUnavailable then ⟨.error (.nelix e), here⟩
      else ⟨later.outcome, here ++ later.asked⟩
    | some (.error raised) => ⟨.error raised, here⟩
    | some (.ok (.quiet _)) => ⟨later.outcome, here ++ later.asked⟩
    | some (.ok answer) => ⟨.ok (some answer), here⟩

/-- The loop between the archive and the generation. -/
def multiplex (request : WaitRequest) (cursor : Cursor) (archiveEpoch : ℤ) (archiveSeq : ℕ) :
    List WaitTurn → Waited
  | [] => ⟨.ok none, []⟩
  | turn :: rest =>
    let forward :=
      forwardIn request cursor turn (multiplex request cursor archiveEpoch archiveSeq rest)
    match turn.counter with
    | .ok currentSeq =>
      if archiveSeq < currentSeq then
        ⟨.ok (some (.archive (cursor.advanceArchive archiveEpoch currentSeq))), []⟩
      else forward
    | .error fault =>
      match fault.lasting? with
      | some e => ⟨.error (.nelix e), []⟩
      | none => forward

/-- The one forward where the archive is not polled. -/
def forwardOnce (request : WaitRequest) (cursor : Cursor) (read : Option LiveRead) : Waited :=
  ⟨read.mapM (waitOnGeneration request.gen cursor),
    if delivered read then [request] else []⟩

/-- The wait from the generation's handle on. -/
def waitOn (f : WaitForward) (gen : Adopted) (sessions : List String) (cursor : Cursor)
    (reads : WaitReads) : Waited :=
  match position gen cursor reads.current with
  | .error raised => ⟨.error raised, []⟩
  | .ok (.inl answer) => ⟨.ok (some answer), []⟩
  | .ok (.inr (cursor, afterSeq)) =>
    match f.archivePosition cursor reads.first with
    | .error raised => ⟨.error raised, []⟩
    | .ok (.inl answer) => ⟨.ok (some answer), []⟩
    | .ok (.inr (cursor, some (archiveEpoch, archiveSeq))) =>
      multiplex ⟨gen, sessions, afterSeq⟩ cursor archiveEpoch archiveSeq reads.turns
    | .ok (.inr (cursor, none)) => forwardOnce ⟨gen, sessions, afterSeq⟩ cursor reads.single

/-- `_wait_inner` with what the ledger answers. -/
def waitInner (f : WaitForward) (at_ : Deployment) (sessions : List String) (token : String)
    (reads : WaitReads) : GenRoutine Waited :=
  if sessions = [] then pure ⟨.ok (some .emptyOrchestration), []⟩
  else do
    let topology ← Registry.topologyRevision
    match ← .done (f.startCursor token topology) with
    | .inl answer => pure ⟨.ok (some answer), []⟩
    | .inr cursor => do
      let gen ← Registry.active at_
      pure (f.waitOn gen sessions cursor reads)

/-- `wait`: the ledger is read in the state `db`. -/
def wait (f : WaitForward) (at_ : Deployment) (db : Db) (ownerId orchestrationId token : String)
    (reads : WaitReads) : GenRoutine Waited := do
  .done (require (validOwnerId ownerId = true) .invalidRequest
    s!"invalid owner_id: {pyRepr ownerId}")
  .done (checkOrchestration orchestrationId)
  let sessions ← .done (db.sessionsForOrchestration ownerId orchestrationId)
  f.waitInner at_ sessions token reads

end WaitForward

/-! ### The adopted generation, and a minted one -/

variable {c : Replies} {w w₀ w' : Boot} {at_ : Deployment} {f : WaitForward} {reads : WaitReads}
  {gen : Adopted} {sessions : List String} {ownerId orchestrationId token : String}

/-- The adopted generation that is returned has an epoch that did not serve before. -/
def Unserved (w₀ : Boot) (r : Except Raised Adopted) : Prop :=
  ∀ a, r = .ok a → ∀ g, ¬ w₀.db.Serves g a.epoch

/-- The outcome of the rest decides, wherever the first part leaves the router. -/
theorem unserved_after {α : Type} {p : GenRoutine α} {next : α → GenRoutine Adopted}
    (second : ∀ a w, Unserved w₀ ((next a).run c.answer w).1) (w : Boot) :
    Unserved w₀ ((p >>= next).run c.answer w).1 := by
  rw [Prog.run_bind]
  generalize p.run c.answer w = answered
  obtain ⟨x | a, w'⟩ := answered
  · exact nofun
  · exact second a w'

theorem unserved_refused {code : ErrorCode} {message : String} (w : Boot) :
    Unserved w₀ ((refused code message : GenRoutine Adopted).run c.answer w).1 := nofun

/-- The rest is judged where the first part has kept what serves. -/
theorem unserved_further {α : Type} {p : GenRoutine α} {next : α → GenRoutine Adopted}
    (only : p.Only StillEffect) (same : Unmoved w₀ w)
    (second : ∀ a w, Unmoved w₀ w → Unserved w₀ ((next a).run c.answer w).1) :
    Unserved w₀ ((p >>= next).run c.answer w).1 := by
  rw [Prog.run_bind]
  have kept : Unmoved w₀ (p.run c.answer w).2 :=
    only.run_keeps (Unmoved w₀) (fun e w calm same => Unmoved.still calm w same) same
  generalize p.run c.answer w = answered at kept
  obtain ⟨x | a, w'⟩ := answered
  · exact nofun
  · exact second a w' kept

/-- A mint returns the epoch it inserted, which had no row. -/
theorem mint_unserved (gid : String) (buildId : Option String) (same : Unmoved w₀ w) :
    Unserved w₀ ((Registry.mintInstallUnlocked at_ gid buildId).run c.answer w).1 := by
  refine unserved_further (.perform trivial fun _ => .done) same fun clock w same => ?_
  refine unserved_further (only_exceptNelix (.perform trivial fun _ => .done) fun n => ?_) same
    fun _ w same => ?_
  · split
    · exact .raise
    · exact .pure
  refine unserved_further (.perform trivial fun _ => .done) same fun epoch w same => ?_
  rw [Prog.run_bind, exceptNelix, Prog.run_rescue, boot_write]
  cases inserted : (Call.insertEpoch epoch gid none clock).apply w.db with
  | error x =>
    intro _ returned
    cases x <;> cases returned
  | ok d =>
    have fresh : ∀ g, ¬ w₀.db.Serves g epoch := fun g serves =>
      insertEpoch_idle inserted g ((same.serves g epoch).mpr serves)
    -- what follows either refuses or returns this epoch
    refine unserved_after (fun _ w => ?_) _
    refine unserved_after (fun spawned w => ?_) _
    refine unserved_after (fun healthy w => ?_) _
    have reaped : ∀ (reaps : Prop) [Decidable reaps] (p : GenRoutine Bool) (message : String) w,
        Unserved w₀ ((if reaps then p >>= fun _ => Registry.tryBury gid epoch >>= fun _ =>
            Registry.unavailable message
          else Registry.tryBury gid epoch >>= fun _ =>
            Registry.unavailable message : GenRoutine Adopted).run c.answer w).1 := by
      intro reaps _ p message w
      have buried : ∀ w, Unserved w₀ ((Registry.tryBury gid epoch >>= fun _ =>
          Registry.unavailable message : GenRoutine Adopted).run c.answer w).1 :=
        unserved_after fun _ => unserved_refused
      split
      · exact unserved_after (fun _ => buried) w
      · exact buried w
    split
    · exact reaped _ _ _ w
    refine unserved_after (fun holder w => ?_) _
    split
    · exact reaped _ _ _ w
    split
    · intro _ returned
      cases returned
    split
    · exact unserved_refused w
    refine unserved_after (fun _ w => ?_) _
    refine unserved_after (fun again w => ?_) _
    split
    · exact unserved_after (fun _ => unserved_refused) w
    refine unserved_after (fun _ w => ?_) _
    intro a returned
    cases returned
    exact fresh

theorem findOrCreate_unserved (same : Unmoved w₀ w) :
    Unserved w₀ ((Registry.findOrCreateLocked at_).run c.answer w).1 := by
  refine unserved_further (.rescue (.perform trivial fun _ => .done) fun _ => .raise) same
    fun gens w same => ?_
  split
  · refine unserved_further ?_ same fun build w same => ?_
    · unfold Registry.bootstrapBuild
      split
      · exact .pure
      · exact .perform trivial fun _ => .done
    refine unserved_further (.perform trivial fun _ => .done) same fun gid w same => ?_
    refine unserved_further (.perform trivial fun _ => .done) same fun _ w same => ?_
    exact mint_unserved gid build same
  · refine unserved_further (.perform trivial fun _ => .done) same fun _ w same => ?_
    exact mint_unserved _ _ same
  · exact nofun

/-- The lock changes nothing about what `active()` answers. -/
theorem active_outcome (at_ : Deployment) (c : Replies) (w : Boot) :
    ((Registry.active at_).run c.answer w).1 = ((Registry.activeLocked at_).run c.answer w).1 := by
  have composed : (Registry.active at_).run c.answer w =
      (unlockRegistry >>= fun _ =>
        (.done ((Registry.activeLocked at_).run c.answer w).1 : GenRoutine Adopted)).run
        c.answer ((Registry.activeLocked at_).run c.answer w).2 :=
    Prog.run_ensure (Registry.activeLocked at_) unlockRegistry w
  rw [composed]
  rfl

/-- What `active()` returns is the session's own epoch exactly where that is the adopted one, if the
epoch serves. -/
theorem active_own_iff {g e : String} (returned : (Registry.active at_).run c.answer w = (.ok gen, w'))
    (serves : w.db.Serves g e) : gen.isOf g (some e) = true ↔ w.cell.Holds g e := by
  have outcome : ((Registry.activeLocked at_).run c.answer w).1 = .ok gen :=
    (active_outcome at_ c w).symm.trans (congrArg Prod.fst returned)
  have read : (readCell : GenRoutine Cell).run c.answer w = (.ok w.cell, w) := rfl
  rw [Registry.activeLocked, Prog.run_bind, read] at outcome
  dsimp only at outcome
  cases active : w.cell.active with
  | none =>
    rw [active] at outcome
    have minted := findOrCreate_unserved (.refl w) gen outcome
    refine iff_of_false (fun own => ?_) ?_
    · simp only [Adopted.isOf, Option.some.injEq, Bool.and_eq_true, decide_eq_true_eq] at own
      exact minted g (own.2 ▸ serves)
    · rintro ⟨a, held, -⟩
      rw [active] at held
      cases held
  | some b =>
    rw [active] at outcome
    have same := (refresh_ends b).run w gen outcome
    constructor
    · exact fun own => ⟨b, active, isOf_of_same ⟨same.1.symm, same.2.symm⟩ own⟩
    · rintro ⟨a, held, own⟩
      rw [active, Option.some.injEq] at held
      exact isOf_of_same same (held ▸ own)

/-! ### What a silent wait has asked -/

/-- The wait blocks, or has timed out quietly. -/
def Waited.Silent (waited : Waited) : Prop :=
  waited.outcome = .ok none ∨ ∃ cursor, waited.outcome = .ok (some (.quiet cursor))

/-- A forward of the loop goes through before the window closes. -/
def Answers (turns : List WaitTurn) : Prop :=
  ∃ turn ∈ turns.takeWhile (·.inTime), delivered turn.forwarded = true

/-- The wait looks at the archive between its forwards. -/
def WaitForward.polls (f : WaitForward) (cursor : Cursor) (first : Except ReadFault ℕ) : Bool :=
  f.archiveEpoch.isSome && (cursor.archive.isSome || first.isOk)

section Loop

variable {request : WaitRequest} {cursor : Cursor} {archiveEpoch : ℤ} {archiveSeq : ℕ}

/-- What a forward makes of the wait: the window is closed, it ends the wait or is held, or the loop
goes round again. -/
theorem forwardIn_cases (turn : WaitTurn) (later : Waited) :
    let waited := WaitForward.forwardIn request cursor turn later
    let here := if delivered turn.forwarded then [request] else []
    (turn.inTime = false ∧ waited.asked = []) ∨
      (turn.inTime = true ∧ waited.asked = here ∧ (waited.Silent → turn.forwarded = none)) ∨
      (turn.inTime = true ∧ waited.outcome = later.outcome ∧
        waited.asked = here ++ later.asked) := by
  intro waited here
  by_cases closed : turn.inTime = false
  · refine .inl ⟨closed, ?_⟩
    show (WaitForward.forwardIn request cursor turn later).asked = []
    rw [WaitForward.forwardIn, if_pos closed]
  · have inTime : turn.inTime = true := by simpa using closed
    have unfolded : waited = WaitForward.forwardIn request cursor turn later := rfl
    rw [WaitForward.forwardIn, if_neg closed] at unfolded
    dsimp only at unfolded
    refine .inr ?_
    split at unfolded
    · rename_i held
      exact .inl ⟨inTime, congrArg Waited.asked unfolded, fun _ => Option.map_eq_none_iff.mp held⟩
    · split at unfolded
      · refine .inl ⟨inTime, congrArg Waited.asked unfolded, fun silent => ?_⟩
        rw [unfolded] at silent
        rcases silent with none | ⟨_, quiet⟩
        · cases none
        · cases quiet
      · exact .inr ⟨inTime, by rw [unfolded], by rw [unfolded]⟩
    · refine .inl ⟨inTime, congrArg Waited.asked unfolded, fun silent => ?_⟩
      rw [unfolded] at silent
      rcases silent with none | ⟨_, quiet⟩
      · cases none
      · cases quiet
    · exact .inr ⟨inTime, by rw [unfolded], by rw [unfolded]⟩
    · rename_i answer loud answered
      refine .inl ⟨inTime, congrArg Waited.asked unfolded, fun silent => ?_⟩
      rw [unfolded] at silent
      rcases silent with none | ⟨quiet, same⟩
      · cases none
      · cases same
        exact absurd rfl (loud quiet)

/-- What one turn makes of the wait: the archive or a fault ends it, or its forward decides. -/
theorem multiplex_turn (turn : WaitTurn) (rest : List WaitTurn) :
    let waited := WaitForward.multiplex request cursor archiveEpoch archiveSeq (turn :: rest)
    let later := WaitForward.multiplex request cursor archiveEpoch archiveSeq rest
    (waited.asked = [] ∧ ¬ waited.Silent) ∨
      waited = WaitForward.forwardIn request cursor turn later := by
  intro waited later
  have unfolded : waited =
      WaitForward.multiplex request cursor archiveEpoch archiveSeq (turn :: rest) := rfl
  rw [WaitForward.multiplex] at unfolded
  have loud : ∀ {outcome : Outcome (Option WaitAnswer)}, waited = ⟨outcome, []⟩ →
      outcome ≠ .ok none → (∀ quiet, outcome ≠ .ok (some (.quiet quiet))) →
      waited.asked = [] ∧ ¬ waited.Silent := by
    rintro outcome same answers signals
    rw [same]
    exact ⟨rfl, fun silent => silent.elim answers fun ⟨quiet, is⟩ => signals quiet is⟩
  split at unfolded
  · split at unfolded
    · exact .inl (loud unfolded nofun nofun)
    · exact .inr unfolded
  · split at unfolded
    · exact .inl (loud unfolded nofun nofun)
    · exact .inr unfolded

/-- Every wait that reaches a daemon names the generation and the sessions. -/
theorem multiplex_asks (turns : List WaitTurn) :
    ∀ r ∈ (WaitForward.multiplex request cursor archiveEpoch archiveSeq turns).asked,
      r = request := by
  induction turns with
  | nil => exact nofun
  | cons turn rest ih =>
    intro r member
    have here : r ∈ (if delivered turn.forwarded then [request] else []) → r = request := by
      split
      · exact List.mem_singleton.mp
      · exact nofun
    rcases multiplex_turn turn rest with ⟨none, -⟩ | goes
    · rw [none] at member
      cases member
    rw [goes] at member
    rcases forwardIn_cases turn _ with ⟨-, none⟩ | ⟨-, once, -⟩ | ⟨-, -, asked⟩
    · rw [none] at member
      cases member
    · exact here (once ▸ member)
    · rw [asked, List.mem_append] at member
      exact member.elim here (ih r)

theorem silent_congr {waited later : Waited} (same : waited.outcome = later.outcome)
    (silent : waited.Silent) : later.Silent := by
  rwa [Waited.Silent, same] at silent

/-- A silent loop has asked exactly where a forward went through in time. -/
theorem multiplex_asked_iff (turns : List WaitTurn)
    (silent : (WaitForward.multiplex request cursor archiveEpoch archiveSeq turns).Silent) :
    (WaitForward.multiplex request cursor archiveEpoch archiveSeq turns).asked ≠ [] ↔
      Answers turns := by
  induction turns with
  | nil => exact iff_of_false (fun asked => asked rfl) fun ⟨_, member, _⟩ => nomatch member
  | cons turn rest ih =>
    rcases multiplex_turn turn rest with ⟨-, loud⟩ | goes
    · exact absurd silent loud
    rw [goes] at silent ⊢
    rcases forwardIn_cases turn _ with ⟨closed, none⟩ | ⟨open_, once, held⟩ |
      ⟨open_, same, asked⟩
    · refine iff_of_false (fun asked => asked none) ?_
      rintro ⟨t, member, -⟩
      rw [List.takeWhile_cons_of_neg (by simp [closed])] at member
      cases member
    · have through : delivered turn.forwarded = true := by
        rw [held silent]
        rfl
      rw [once, if_pos through]
      refine iff_of_true (List.cons_ne_nil _ _) ⟨turn, ?_, through⟩
      rw [List.takeWhile_cons_of_pos open_]
      exact List.mem_cons_self
    · rw [asked, Answers, List.takeWhile_cons_of_pos open_]
      have later := ih (silent_congr same silent)
      by_cases through : delivered turn.forwarded = true
      · rw [if_pos through]
        exact iff_of_true (List.cons_ne_nil _ _) ⟨turn, List.mem_cons_self, through⟩
      · rw [if_neg through, List.nil_append]
        refine later.trans ⟨?_, ?_⟩
        · rintro ⟨t, member, passed⟩
          exact ⟨t, List.mem_cons_of_mem _ member, passed⟩
        · rintro ⟨t, member, passed⟩
          rcases List.mem_cons.mp member with rfl | member
          · exact absurd passed through
          · exact ⟨t, member, passed⟩

end Loop

theorem position_archive {cursor cursor' : Cursor} {current : LiveRead} {afterSeq : ℕ}
    (placed : WaitForward.position gen cursor current = .ok (.inr (cursor', afterSeq))) :
    cursor'.archive = cursor.archive := by
  unfold WaitForward.position at placed
  split at placed
  · simp only [bind_ok, pure, Except.pure, Except.ok.injEq, Sum.inr.injEq, Prod.mk.injEq] at placed
    obtain ⟨seq, -, advancedTo, advanced, rfl, rfl⟩ := placed
    unfold Cursor.advance at advanced
    repeat' split at advanced
    all_goals cases advanced
    all_goals rfl
  · split at placed
    · cases placed
    · cases placed
      rfl

theorem archivePosition_polls {cursor cursor' : Cursor} {first : Except ReadFault ℕ}
    {position : Option (ℤ × ℕ)}
    (placed : f.archivePosition cursor first = .ok (.inr (cursor', position))) :
    f.polls cursor first = position.isSome := by
  unfold WaitForward.archivePosition at placed
  unfold WaitForward.polls
  split at placed
  · rename_i none
    cases placed
    rw [none]
    rfl
  · rename_i kept
    rw [kept]
    split at placed
    · rename_i held
      split at placed
      · cases placed
      · cases placed
        rw [held]
        rfl
    · rename_i fresh
      rw [fresh]
      split at placed
      · cases placed
        rfl
      · split at placed
        · cases placed
        · cases placed
          rfl

/-- A stage answers at once only to have the reader resync. -/
theorem position_answers {cursor : Cursor} {current : LiveRead} {answer : WaitAnswer}
    (answered : WaitForward.position gen cursor current = .ok (.inl answer)) :
    answer = .cursorExpired := by
  unfold WaitForward.position at answered
  split at answered
  · simp only [bind_ok, pure, Except.pure, Except.ok.injEq] at answered
    obtain ⟨_, -, _, -, ⟨⟩⟩ := answered
  · split at answered
    · cases answered
      rfl
    · cases answered

theorem archivePosition_answers {cursor : Cursor} {first : Except ReadFault ℕ}
    {answer : WaitAnswer} (answered : f.archivePosition cursor first = .ok (.inl answer)) :
    answer = .cursorExpired := by
  unfold WaitForward.archivePosition at answered
  repeat' split at answered
  all_goals cases answered
  rfl

theorem loud_of_error {raised : Raised} {asked : List WaitRequest} :
    ¬ (⟨.error raised, asked⟩ : Waited).Silent := by
  rintro (none | ⟨_, quiet⟩)
  · cases none
  · cases quiet

theorem loud_of_resync {asked : List WaitRequest} :
    ¬ (⟨.ok (some .cursorExpired), asked⟩ : Waited).Silent := by
  rintro (none | ⟨_, quiet⟩)
  · cases none
  · cases quiet

/-- The one forward that leaves the wait silent has gone through. -/
theorem forwardOnce_delivered {request : WaitRequest} {cursor : Cursor} {read : Option LiveRead}
    (silent : (WaitForward.forwardOnce request cursor read).Silent) : delivered read = true := by
  unfold delivered
  split
  · rcases silent with none | ⟨_, quiet⟩
    · cases none
    · cases quiet
  · rfl

theorem waitOn_asks {cursor : Cursor} :
    ∀ r ∈ (f.waitOn gen sessions cursor reads).asked, r.gen = gen ∧ r.sessions = sessions := by
  unfold WaitForward.waitOn
  split
  · exact nofun
  · exact nofun
  split
  · exact nofun
  · exact nofun
  · intro r member
    rw [multiplex_asks reads.turns r member]
    exact ⟨rfl, rfl⟩
  · intro r member
    rw [WaitForward.forwardOnce] at member
    dsimp only at member
    split at member
    · rw [List.mem_singleton.mp member]
      exact ⟨rfl, rfl⟩
    · cases member

/-- A silent wait has asked, but where a polling one has no forward that goes through in time. -/
theorem waitOn_asked_iff {cursor : Cursor} (silent : (f.waitOn gen sessions cursor reads).Silent) :
    (f.waitOn gen sessions cursor reads).asked ≠ [] ↔
      (f.polls cursor reads.first = true → Answers reads.turns) := by
  cases placed : WaitForward.position gen cursor reads.current with
  | error raised =>
    rw [WaitForward.waitOn, placed] at silent
    exact absurd silent loud_of_error
  | ok stage =>
    obtain answer | ⟨cursor', afterSeq⟩ := stage
    · rw [WaitForward.waitOn, placed, position_answers placed] at silent
      exact absurd silent loud_of_resync
    cases archived : f.archivePosition cursor' reads.first with
    | error raised =>
      rw [WaitForward.waitOn, placed] at silent
      dsimp only at silent
      rw [archived] at silent
      exact absurd silent loud_of_error
    | ok stage =>
      have polls : ∀ last position, stage = .inr (last, position) →
          f.polls cursor reads.first = position.isSome := by
        rintro last position rfl
        rw [← archivePosition_polls archived, WaitForward.polls, WaitForward.polls,
          position_archive placed]
      rw [WaitForward.waitOn, placed] at silent ⊢
      dsimp only at silent ⊢
      rw [archived] at silent ⊢
      obtain answer | ⟨last, _ | ⟨archiveEpoch, archiveSeq⟩⟩ := stage
      · rw [archivePosition_answers archived] at silent
        exact absurd silent loud_of_resync
      · -- one forward, and no look at the archive
        have through := forwardOnce_delivered silent
        have asked : (WaitForward.forwardOnce ⟨gen, sessions, afterSeq⟩ last reads.single).asked =
            [⟨gen, sessions, afterSeq⟩] := if_pos through
        rw [polls _ _ rfl]
        exact iff_of_true (fun none => List.cons_ne_nil _ _ (asked.symm.trans none)) nofun
      · rw [polls _ _ rfl]
        exact (multiplex_asked_iff reads.turns silent).trans ⟨fun reached _ => reached,
          fun reached => reached rfl⟩

/-! ### A wait, as it is called -/

theorem startCursor_answers {topology : ℕ} {answer : WaitAnswer}
    (answered : f.startCursor token topology = .ok (.inl answer)) :
    answer = .cursorExpired ∨ answer = .boardChanged := by
  unfold WaitForward.startCursor at answered
  repeat' split at answered
  all_goals first
    | cases answered
      exact .inl rfl
    | cases answered
      exact .inr rfl
    | cases answered
    | cases cursor : newCursor f.routerEpoch topology <;> rw [cursor] at answered <;> cases answered

/-- A wait answers with a marker before it has a generation, or it comes to what `waitOn` does. -/
theorem wait_stages {waited : Waited}
    (ran : (f.wait at_ w.db ownerId orchestrationId token reads).run c.answer w =
      (.ok waited, w')) :
    (∃ answer, waited = ⟨.ok (some answer), []⟩ ∧
      (answer = .emptyOrchestration ∨ answer = .cursorExpired ∨ answer = .boardChanged)) ∨
    ∃ sessions cursor gen,
      w.db.sessionsForOrchestration ownerId orchestrationId = .ok sessions ∧
      f.startCursor token w.cell.topologyRevision = .ok (.inr cursor) ∧
      (Registry.active at_).run c.answer w = (.ok gen, w') ∧
      waited = f.waitOn gen sessions cursor reads := by
  rw [WaitForward.wait, Prog.run_bind] at ran
  generalize require (validOwnerId ownerId = true) ErrorCode.invalidRequest
    s!"invalid owner_id: {pyRepr ownerId}" = owned at ran
  obtain x | _ := owned
  · cases ran
  dsimp only [Prog.run_done] at ran
  rw [Prog.run_bind] at ran
  generalize checkOrchestration orchestrationId = named at ran
  obtain x | _ := named
  · cases ran
  dsimp only [Prog.run_done] at ran
  rw [Prog.run_bind] at ran
  generalize w.db.sessionsForOrchestration ownerId orchestrationId = listed at ran ⊢
  obtain x | sessions := listed
  · cases ran
  dsimp only [Prog.run_done] at ran
  rw [WaitForward.waitInner] at ran
  by_cases none : sessions = []
  · rw [if_pos none] at ran
    cases ran
    exact .inl ⟨_, rfl, .inl rfl⟩
  have revision : Registry.topologyRevision.run c.answer w =
      (.ok w.cell.topologyRevision, w) := rfl
  rw [if_neg none, Prog.run_bind, revision] at ran
  dsimp only at ran
  rw [Prog.run_bind, Prog.run_done] at ran
  cases started : f.startCursor token w.cell.topologyRevision with
  | error x =>
    rw [started] at ran
    cases ran
  | ok stage =>
    rw [started] at ran
    obtain answer | cursor := stage
    · cases ran
      exact .inl ⟨answer, rfl, .inr (startCursor_answers started)⟩
    · dsimp only at ran
      rw [Prog.run_bind] at ran
      generalize (Registry.active at_).run c.answer w = answered at ran ⊢
      obtain ⟨x | gen, w₁⟩ := answered
      · cases ran
      · cases ran
        exact .inr ⟨sessions, cursor, gen, rfl, rfl, rfl, rfl⟩

/-- The stages that a silent wait has passed. -/
theorem wait_passed {waited : Waited}
    (ran : (f.wait at_ w.db ownerId orchestrationId token reads).run c.answer w = (.ok waited, w'))
    (silent : waited.Silent) :
    ∃ sessions cursor gen,
      w.db.sessionsForOrchestration ownerId orchestrationId = .ok sessions ∧
      f.startCursor token w.cell.topologyRevision = .ok (.inr cursor) ∧
      (Registry.active at_).run c.answer w = (.ok gen, w') ∧
      waited = f.waitOn gen sessions cursor reads := by
  rcases wait_stages ran with ⟨answer, rfl, marker⟩ | passed
  · -- a marker is an answer, and not the quiet one
    rcases silent with none | ⟨_, quiet⟩
    · cases none
    · cases quiet
      rcases marker with is | is | is <;> cases is
  · exact passed

/-- The session of the orchestration is bound to an epoch that serves. -/
def Boot.Live (w : Boot) (ownerId orchestrationId sessionId g e : String) : Prop :=
  (∃ sessions, w.db.sessionsForOrchestration ownerId orchestrationId = .ok sessions ∧
    sessionId ∈ sessions) ∧
  w.db.bindingOf sessionId = some (g, e) ∧ w.db.Serves g e

/-- Each live session's own daemon has been asked for it. -/
def Boot.Watched (w : Boot) (ownerId orchestrationId : String) (asked : List WaitRequest) : Prop :=
  ∀ sessionId g e, w.Live ownerId orchestrationId sessionId g e →
    ∃ r ∈ asked, r.gen.isOf g (some e) = true ∧ sessionId ∈ r.sessions

/-- A wait that stays silent has asked each live session's own daemon exactly where that daemon is
the adopted one for all of them and, if there is one and the archive is polled, a forward went
through in time. -/
theorem watched_iff (f : WaitForward) (at_ : Deployment) (c : Replies)
    (ownerId orchestrationId token : String) (reads : WaitReads) (w w' : Boot) (waited : Waited)
    (ran : (f.wait at_ w.db ownerId orchestrationId token reads).run c.answer w = (.ok waited, w'))
    (silent : waited.Silent) :
    w.Watched ownerId orchestrationId waited.asked ↔
      (∀ sessionId g e, w.Live ownerId orchestrationId sessionId g e → w.cell.Holds g e) ∧
      ((∃ sessionId g e, w.Live ownerId orchestrationId sessionId g e) →
        ∀ cursor, f.startCursor token w.cell.topologyRevision = .ok (.inr cursor) →
          f.polls cursor reads.first = true → Answers reads.turns) := by
  obtain ⟨sessions, cursor, gen, listed, started, returned, rfl⟩ := wait_passed ran silent
  have asks : ∀ r ∈ (f.waitOn gen sessions cursor reads).asked,
      r.gen = gen ∧ r.sessions = sessions := waitOn_asks
  constructor
  · intro watched
    refine ⟨fun sessionId g e live => ?_, fun ⟨sessionId, g, e, live⟩ cursor' same polls => ?_⟩
    · obtain ⟨r, member, own, -⟩ := watched sessionId g e live
      rw [(asks r member).1] at own
      exact (active_own_iff returned live.2.2).mp own
    · obtain ⟨r, member, -⟩ := watched sessionId g e live
      rw [started, Except.ok.injEq, Sum.inr.injEq] at same
      subst same
      exact (waitOn_asked_iff silent).mp (List.ne_nil_of_mem member) polls
  · rintro ⟨adopted, through⟩ sessionId g e live
    obtain ⟨⟨sessions', listed', member⟩, -, serves⟩ := id live
    rw [listed, Except.ok.injEq] at listed'
    subst listed'
    have own := (active_own_iff returned serves).mpr (adopted sessionId g e live)
    obtain ⟨r, asked⟩ := List.exists_mem_of_ne_nil _
      ((waitOn_asked_iff silent).mpr (through ⟨sessionId, g, e, live⟩ cursor started))
    obtain ⟨same, named⟩ := asks r asked
    exact ⟨r, asked, same ▸ own, named ▸ member⟩

/-! ### A wait beside a draining generation -/

/-- A session of the draining generation, which still serves, under an orchestration. -/
def attendedBoot : Boot where
  db := machine.after {} (drainedCalls ++
    [.reserve sampleRequest sampleId (.finite 3),
      .assignGeneration sampleId.value sampleGeneration firstEpoch])
  cell := drainedBoot.cell

/-- Nothing happens in the new generation, and the window closes. -/
def eventlessReads : WaitReads where
  current := .answered 200 (.object [("cursor", .int 0)])
  first := .ok 0
  turns :=
    [⟨.ok 0, true, some (.answered 200 (.object [("event", .null)]))⟩, ⟨.ok 0, false, none⟩]
  single := none

def sampleWait : WaitForward := ⟨"router-1", some 1, fun _ _ _ => refuse .cursorExpired ""⟩

def attendedWait : Except Raised Waited × Boot :=
  (sampleWait.wait sampleDeployment attendedBoot.db "owner"
    sampleRequest.orchestrationId "" eventlessReads).run drainedReplies.answer attendedBoot

/-- The pairs that a quiet wait has asked. -/
def quietly : Except Raised Waited → Option (List (String × String))
  | .ok ⟨.ok (some (.quiet _)), asked⟩ => some (asked.map fun r => (r.gen.generationId, r.gen.epoch))
  | _ => none

theorem attendedWait_quiet : ∃ waited, attendedWait = (.ok waited, attendedWait.2) ∧
    waited.Silent ∧ ∀ r ∈ waited.asked, r.gen.epoch = secondEpoch := by
  have quiet : quietly attendedWait.1 = some [(nextGeneration, secondEpoch)] := by decide +kernel
  generalize attendedWait = answered at quiet ⊢
  obtain ⟨x | waited, w'⟩ := answered
  · cases quiet
  · dsimp only at quiet
    unfold quietly at quiet
    split at quiet
    · rename_i cursor asked same
      rw [Except.ok.injEq] at same
      subst same
      refine ⟨_, rfl, .inr ⟨cursor, rfl⟩, fun r member => ?_⟩
      have mapped : (r.gen.generationId, r.gen.epoch) ∈ [(nextGeneration, secondEpoch)] :=
        Option.some.inj quiet ▸ List.mem_map_of_mem member
      exact congrArg Prod.snd (List.mem_singleton.mp mapped)
    · cases quiet

theorem attended_live : attendedBoot.Live "owner" sampleRequest.orchestrationId sampleId.value
    sampleGeneration firstEpoch := by
  refine ⟨⟨[sampleId.value], ?_, List.mem_singleton_self _⟩, by decide +kernel, ?_⟩
  · decide +kernel
  · exact serves_iff_standing.mpr (by decide +kernel)

theorem watched_iff_attended : ∃ waited, attendedWait = (.ok waited, attendedWait.2) ∧
    (attendedBoot.Watched "owner" sampleRequest.orchestrationId waited.asked ↔
      (∀ sessionId g e, attendedBoot.Live "owner" sampleRequest.orchestrationId sessionId g e →
        attendedBoot.cell.Holds g e) ∧
      ((∃ sessionId g e,
          attendedBoot.Live "owner" sampleRequest.orchestrationId sessionId g e) →
        ∀ cursor, sampleWait.startCursor "" attendedBoot.cell.topologyRevision =
            .ok (.inr cursor) →
          sampleWait.polls cursor eventlessReads.first = true → Answers eventlessReads.turns)) := by
  obtain ⟨waited, answered, silent, -⟩ := attendedWait_quiet
  exact ⟨waited, answered, watched_iff sampleWait sampleDeployment drainedReplies "owner"
    sampleRequest.orchestrationId "" eventlessReads attendedBoot attendedWait.2 waited answered
    silent⟩

/-- The wait times out quietly and nobody watches the session of the draining generation. -/
theorem draining_unwatched : ∃ waited, attendedWait = (.ok waited, attendedWait.2) ∧
    waited.Silent ∧
    attendedBoot.Live "owner" sampleRequest.orchestrationId sampleId.value sampleGeneration
      firstEpoch ∧
    ¬ attendedBoot.Watched "owner" sampleRequest.orchestrationId waited.asked := by
  obtain ⟨waited, answered, silent, elsewhere⟩ := attendedWait_quiet
  refine ⟨waited, answered, silent, attended_live, fun watched => ?_⟩
  obtain ⟨r, asked, own, -⟩ := watched _ _ _ attended_live
  rw [Adopted.isOf, elsewhere r asked] at own
  have apart : secondEpoch ≠ firstEpoch := by decide
  simp [apart] at own

end Nelix.Router
