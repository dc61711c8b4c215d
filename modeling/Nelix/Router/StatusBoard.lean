import Nelix.Router.Cursor
import Nelix.Router.ReadoptionInspection
import Nelix.Router.Wait

/-!
# The board across the generations

The status of an owner's sessions: the live boards of the generations that the registry exposes,
merged with the archive of the store.

## Main results

`board_complete_iff`: the merged board accounts for every serving generation exactly when the
registry holds the only one; the archive always wins, and the order of the reads never matters.
-/
namespace Nelix.Router

open Contracts Core Store GenRoutine

/-! ### What the registry exposes -/

namespace Registry

/-- The generation that a discovery probes. -/
def knownGeneration : GenRoutine (Option String) := do
  match (← readCell).generationId with
  | some gid => pure (some gid)
  | none =>
    Prog.rescue (do
      let gens ← listGenerations .readopt
      match activeRows gens with
      | [] => pure none
      | genRec :: _ => do
        remember genRec.generationId
        pure (some genRec.generationId))
      fun _ => pure none

/-- Adopts the epoch that a daemon reports, once the store has promoted it. -/
def adoptReported (at_ : Deployment) (gid reported : String) (holder : Holder) (transport : String)
    (clock : Reading) : GenRoutine Unit := do
  let incMeta := some (at_.incarnationMeta holder.incarnation)
  let inserted ← exceptNelix (do
    write (.insertEpoch reported gid incMeta clock)
    pure true)
    fun _ => pure false
  if inserted then do
    let promoted ← exceptNelix (do
      write (.casEpochServing gid reported none incMeta)
      pure true)
      fun _ => do
        tryBury gid reported
        pure false
    if promoted then install ⟨holder.incarnation, reported, gid, transport, at_.buildId⟩ false
    else pure ()
  else pure ()

/-- `_discover_locked` of a registry without an injected supervisor. -/
def discoverLocked (at_ : Deployment) : GenRoutine Unit := do
  match ← knownGeneration with
  | none => pure ()
  | some gid => do
    supervise gid
    match ← liveLockHolder gid with
    | none => pure ()
    | some holder =>
      match holder.transport with
      | none => pure ()
      | some transport =>
        match ← healthIdentity gid transport with
        | none => pure ()
        | some identity =>
          if Json.equals identity.generationId (some gid) &&
              Json.equals identity.buildId at_.buildId && identity.generationEpoch.truthy then do
            let clock ← time
            exceptNelix (write (.createGeneration gid at_.buildId .active none clock))
              fun _ => pure ()
            match identity.generationEpoch with
            | .text reported => adoptReported at_ gid reported holder transport clock
            -- the store refuses an epoch that is no str
            | _ => pure ()
          else pure ()

def discoverIdle (at_ : Deployment) (discover : Bool) : GenRoutine Unit := do
  let cell ← readCell
  if cell.active = none ∧ discover = true then discoverLocked at_ else pure ()

/-- `generations`: the adopted one, if there is one. -/
def generations (at_ : Deployment) (discover : Bool) : GenRoutine (List Adopted) := do
  lockRegistry
  (do
    discoverIdle at_ discover
    let cell ← readCell
    pure cell.active.toList).ensure unlockRegistry

/-- `topology_revision` -/
def topologyRevision : GenRoutine ℕ := do
  lockRegistry
  let cell ← readCell
  unlockRegistry
  pure cell.topologyRevision

end Registry

/-! ### One live board -/

/-- What becomes of `GET /status` at a generation. -/
inductive LiveRead
  | connectError (shown : String)
  | responseError (shown : String)
  | answered (status : ℤ) (body : Json)

/-- `relay` -/
def relay : LiveRead → Outcome (ℤ × Json)
  | .connectError shown =>
    refuse .generationUnavailable s!"forward to generation failed before delivery: {shown}"
  | .responseError shown =>
    refuse .generationUnavailable s!"forward to generation was ambiguous: {shown}"
  | .answered status body => .ok (status, body)

/-- A live board with every shape that is relied on. -/
structure LiveBoard where
  cursor : ℕ
  sessions : Dict String Json
  recentTerminal : Dict String Json

/-- `_is_healthy_board`: a bool is no cursor, and both maps are there. -/
def healthyBoard? (body : Json) : Option LiveBoard :=
  match body.get? "cursor", body.get? "sessions", body.get? "recent_terminal" with
  | some (.int cursor), some (.object sessions), some (.object recentTerminal) =>
    if 0 ≤ cursor then
      some ⟨cursor.toNat, Dict.ofFields sessions, Dict.ofFields recentTerminal⟩
    else none
  | _, _, _ => none

/-- `_forward_one`: none for a generation that is unavailable. -/
def forwardOne (read : LiveRead) : Outcome (Option LiveBoard) :=
  match relay read with
  | .ok (status, body) => .ok (if status = 200 then healthyBoard? body else none)
  | .error (.nelix e) => if e.code ≠ .generationUnavailable then .error (.nelix e) else .ok none
  | .error raised => .error raised

/-! ### Merging -/

/-- The two maps of a board. -/
structure Maps where
  sessions : Dict String Json := ∅
  recentTerminal : Dict String Json := ∅

/-- `merge_boards` -/
def mergeBoards (perGeneration : List (String × LiveBoard)) : Maps :=
  perGeneration.foldl
    (fun merged (_, board) =>
      ⟨merged.sessions.merge board.sessions, merged.recentTerminal.merge board.recentTerminal⟩)
    {}

/-- The entry of an archived result. -/
def archivedEntry (tr : TerminalRecord) : Json :=
  .object
    [("session_id", .text tr.row.sessionId), ("terminal_kind", .text tr.row.terminalKind),
      ("screen_excerpt", .text tr.row.summary), ("control_state", .text "terminal"),
      ("pending", .bool false), ("terminal", .bool true)]

/-- One archived result suppresses every live entry of its session. -/
def suppress (live : Maps) (tr : TerminalRecord) : Maps :=
  let sid := tr.row.sessionId
  ⟨live.sessions.pop sid, (live.recentTerminal.pop sid).set sid (archivedEntry tr)⟩

/-- `merge_archive_into` -/
def mergeArchiveInto (live : Maps) (archiveRecords : List TerminalRecord) : Maps :=
  archiveRecords.foldl suppress live

/-! ### The board -/

/-- How many sessions an orchestration waits on, and how many wait for it. -/
structure Attended where
  sessions : ℕ
  waiters : ℕ

/-- `BoardForward`: the archive's epoch is set where there is a store, and the orchestrations are
counted where there are a ledger and waiters. -/
structure BoardForward where
  routerEpoch : String
  archiveEpoch : Option ℤ
  orchestrations : Option (String → Outcome (List (String × Attended)))

/-- What the reads of a board come to: the live board of each generation, and the store in the state
in which the archive is read from it. -/
structure BoardReads where
  live : String → LiveRead
  archive : Except ReadFault Db

/-- The merged board; the cursor stands for its token, and an empty `boardIncomplete` for False. -/
structure Board where
  sessions : Dict String Json
  recentTerminal : Dict String Json
  cursor : Cursor
  boardIncomplete : List String
  archiveIncomplete : Bool
  orchestrations : Option (List (String × Attended))

/-- What the loop over the generations gathers. -/
structure Gathered where
  healthy : List (String × LiveBoard) := []
  unavailable : List String := []
  cursor : Cursor

/-- One generation of the loop. -/
def gatherOne (live : String → LiveRead) (gathered : Gathered) (gen : Adopted) :
    Outcome Gathered := do
  match ← forwardOne (live gen.generationId) with
  | none => pure { gathered with unavailable := gathered.unavailable ++ [gen.generationId] }
  | some reply => do
    let cursor ← gathered.cursor.advance gen.generationId gen.epoch reply.cursor
    pure
      { gathered with
        healthy := gathered.healthy ++ [(gen.generationId, reply)]
        cursor := cursor }

/-- `read_board_snapshot`, as the board sees it. -/
def BoardReads.snapshot (reads : BoardReads) (owner : String) :
    Except ReadFault (ℕ × List TerminalRecord) :=
  match reads.archive with
  | .error met => .error met
  | .ok db =>
    match db.readBoardSnapshot owner with
    | .ok snapshot => .ok snapshot
    | .error (.nelix error) => .error (.refused error)
    | .error _ => .error .os

namespace BoardForward

/-- The archive's part: its maps, the cursor, and whether the archive could not be read. -/
def mergeArchive (f : BoardForward) (owner : String) (reads : BoardReads) (merged : Maps)
    (cursor : Cursor) : Outcome (Maps × Cursor × Bool) :=
  match f.archiveEpoch with
  | none => .ok (merged, cursor, false)
  | some archiveEpoch =>
    match reads.snapshot owner with
    | .ok (archiveSeq, records) =>
      .ok (mergeArchiveInto merged records, cursor.advanceArchive archiveEpoch archiveSeq, false)
    | .error .sqlite | .error .os => .ok (merged, cursor, true)
    | .error (.refused e) =>
      if e.code = .storeUnavailable then .ok (merged, cursor, true) else .error (.nelix e)

/-- `merged["orchestrations"]`, where it is set. -/
def attended (f : BoardForward) (owner : String) : Outcome (Option (List (String × Attended))) :=
  match f.orchestrations with
  | none => .ok none
  | some counted => (counted owner).map some

/-- `status` from the registry's answers on. -/
def merged (f : BoardForward) (owner : String) (reads : BoardReads) (gens : List Adopted)
    (topologyRevision : ℕ) : Outcome Board := do
  let cursor ← newCursor f.routerEpoch topologyRevision
  let gathered ← gens.foldlM (gatherOne reads.live) { cursor := cursor }
  let (maps, cursor, archiveIncomplete) ←
    f.mergeArchive owner reads (mergeBoards gathered.healthy) gathered.cursor
  let orchestrations ← f.attended owner
  pure ⟨maps.sessions, maps.recentTerminal, cursor, gathered.unavailable, archiveIncomplete,
    orchestrations⟩

/-- `status` -/
def status (f : BoardForward) (at_ : Deployment) (owner : String) (reads : BoardReads) :
    GenRoutine Board := do
  if validOwnerId owner = false then
    refused .invalidRequest s!"invalid owner_id: {pyRepr owner}"
  else do
    let gens ← Registry.generations at_ true
    let revision ← Registry.topologyRevision
    .done (f.merged owner reads gens revision)

end BoardForward

/-! ### A discovery -/

variable {c : Replies} {w w₀ w' : Boot} {at_ : Deployment} {f : BoardForward} {reads : BoardReads}
  {owner : String}

/-- Neither the adopted generation nor the serving epochs have changed. -/
structure Unmoved (w w' : Boot) : Prop where
  active : w'.cell.active = w.cell.active
  serves : ∀ g e, w'.db.Serves g e ↔ w.db.Serves g e

/-- Effects that neither adopt nor promote. -/
def StillEffect : GenEffect → Prop
  | .write (.createGeneration ..) | .write (.insertEpoch ..) => True
  | .write _ | .refresh .. | .install .. => False
  | _ => True

theorem Unmoved.refl (w : Boot) : Unmoved w w := ⟨rfl, fun _ _ => Iff.rfl⟩

theorem Unmoved.written (same : Unmoved w₀ w) {call : Call} {d : Db} (calm : call.repairs = false)
    (cas : ∀ g e expected told, call ≠ .casEpochServing g e expected told)
    (reconcile : ∀ g e, call ≠ .reconcileEpochDead g e) (done : call.apply w.db = .ok d) :
    Unmoved w₀ { w with db := d } := by
  refine ⟨same.active, fun g e => ?_⟩
  cases Call.servingEffect calm done with
  | kept _ _ serves => exact (serves g e).trans (same.serves g e)
  | promoted _ _ _ _ here => exact absurd here (cas _ _ _ _)
  | buried _ _ here => exact absurd here (reconcile _ _)

/-- What is written about a generation or an epoch that starts keeps the rest. -/
theorem Unmoved.keeps (same : Unmoved w₀ w) {e : GenEffect} (calm : StillEffect e) :
    Unmoved w₀ (c.answer e w).2 := by
  cases e with
  | write call =>
    have kept : ∀ d, call.apply w.db = .ok d → Unmoved w₀ { w with db := d } := by
      cases call with
      | createGeneration | insertEpoch =>
        exact fun d done => same.written rfl (fun _ _ _ _ here => by cases here)
          (fun _ _ here => by cases here) done
      | _ => cases calm
    unfold Replies.answer
    dsimp only
    cases done : call.apply w.db with
    | ok d => exact kept d done
    | error x => exact same
  | refresh | install => cases calm
  | _ => exact ⟨same.active, same.serves⟩

/-- What a read of the generations finds out. -/
inductive Discovered (w w' : Boot) : Prop
  | unmoved (same : Unmoved w w')
  | adopted (a : Adopted) (was : w.cell.active = none) (now : w'.cell.active = some a)
      (idle : ∀ e, ¬ w.db.Serves a.generationId e)
      (serves : ∀ g e, w'.db.Serves g e ↔ w.db.Serves g e ∨ (g = a.generationId ∧ e = a.epoch))

/-- Where a program ends well, it has found this out. -/
def Finds {α : Type} (w₀ : Boot) (r : Except Raised α) (w : Boot) : Prop :=
  ∀ a, r = .ok a → Discovered w₀ w

theorem Unmoved.finds {α : Type} {r : Except Raised α} (same : Unmoved w₀ w) : Finds w₀ r w :=
  fun _ _ => .unmoved same

theorem insertEpoch_idle {db d : Db} {reported gid : String} {told : Option String}
    {clock : Reading} (done : (Call.insertEpoch reported gid told clock).apply db = .ok d)
    (g : String) : ¬ db.Serves g reported := by
  simp only [Call.apply, Db.insertEpoch, bind_ok, demand_ok] at done
  obtain ⟨-, -, -, -, -, -, created, -, epochs, inserted, -⟩ := done
  rintro ⟨row, found, -⟩
  have fresh : db.findEpoch reported = none := Table.fresh_of_insert inserted
  rw [fresh] at found
  cases found

/-- The reported epoch is adopted only where the store has promoted it. -/
theorem adoptReported_finds {gid reported transport : String} {holder : Holder} {clock : Reading}
    (same : Unmoved w₀ w) (was : w₀.cell.active = none) :
    Finds w₀ ((Registry.adoptReported at_ gid reported holder transport clock).run c.answer w).1
      ((Registry.adoptReported at_ gid reported holder transport clock).run c.answer w).2 := by
  rw [Registry.adoptReported, Prog.run_bind, boot_attempt]
  cases inserted : (Call.insertEpoch reported gid
      (some (at_.incarnationMeta holder.incarnation)) clock).apply w.db with
  | error x =>
    cases x with
    | nelix n => exact same.finds
    | _ => nofun
  | ok d =>
    have kept : Unmoved w₀ { w with db := d } :=
      same.written rfl (fun _ _ _ _ here => by cases here) (fun _ _ here => by cases here) inserted
    dsimp only
    rw [if_pos rfl, Prog.run_bind, boot_attempt]
    dsimp only
    cases promoted : (Call.casEpochServing gid reported none
        (some (at_.incarnationMeta holder.incarnation))).apply d with
    | ok d' =>
      cases Call.servingEffect rfl promoted with
      | kept cas => exact absurd rfl (cas _ _ _ _)
      | buried _ _ here => cases here
      | promoted g e _ _ here _ idle alone _ serves =>
        cases here
        refine fun _ _ => .adopted _ was rfl (fun e' serving => ?_) fun g' e' => ?_
        · exact alone e' ((kept.serves _ e').mpr serving)
        · rw [← kept.serves g' e']
          refine (serves g' e').trans ?_
          by_cases here : e' = reported
          · have none : ¬ d.Serves g' reported := idle g'
            simp [here, none]
          · simp [here]
    | error x =>
      cases x with
      | nelix n =>
        dsimp only
        rw [Prog.run_bind, Registry.tryBury, Prog.run_rescue, boot_write]
        dsimp only
        cases buried : (Call.reconcileEpochDead gid reported).apply d with
        | error x => exact kept.finds
        | ok d' =>
          refine Unmoved.finds ⟨kept.active, fun g e => ?_⟩
          cases Call.servingEffect rfl buried with
          | kept _ _ serves => exact (serves g e).trans (kept.serves g e)
          | promoted _ _ _ _ here => cases here
          | buried g' e' here owned _ serves =>
            cases here
            -- the epoch was starting, so that nothing that served is gone
            refine (serves g e).trans (.trans ?_ (kept.serves g e))
            refine and_iff_right_of_imp fun serving here => ?_
            subst here
            exact insertEpoch_idle inserted g ((same.serves _ _).mpr ((kept.serves _ _).mp serving))
      | _ => nofun

theorem Unmoved.still {e : GenEffect} (calm : StillEffect e) (w : Boot) (same : Unmoved w₀ w) :
    Unmoved w₀ (c.answer e w).2 := same.keeps calm

theorem only_knownGeneration : Registry.knownGeneration.Only StillEffect := by
  refine .bind (.perform trivial fun _ => .done) fun cell => ?_
  split
  · exact .pure
  · refine .rescue (.bind (.perform trivial fun _ => .done) fun gens => ?_) fun _ => .pure
    split
    · exact .pure
    · exact .bind (.perform trivial fun _ => .done) fun _ => .pure

/-- A discovery adopts at most one generation, which served nothing, and changes nothing else. -/
theorem discoverLocked_finds (was : w₀.cell.active = none) (same : Unmoved w₀ w) :
    Finds w₀ ((Registry.discoverLocked at_).run c.answer w).1
      ((Registry.discoverLocked at_).run c.answer w).2 := by
  have further : ∀ {α : Type} {p : GenRoutine α} {next : α → GenRoutine Unit} {w : Boot},
      p.Only StillEffect → Unmoved w₀ w →
      (∀ a w, Unmoved w₀ w → (Setting.alone c.answer).Safe (fun _ _ => True) (Finds w₀) (next a) w) →
      (Setting.alone c.answer).Safe (fun _ _ => True) (Finds w₀) (p >>= next) w :=
    fun only same second => Setting.Safe.first_alone (Unmoved w₀) only
      (fun e w calm same => Unmoved.still calm w same) same (fun _ _ same => same.finds) second
  have ends : ∀ w, Unmoved w₀ w →
      (Setting.alone c.answer).Safe (fun _ _ => True) (Finds w₀) (pure () : GenRoutine Unit) w :=
    fun w same w' stays => by
      cases stays
      exact same.finds
  refine Setting.safe_alone.mp (further only_knownGeneration same fun known w same => ?_)
  split
  · exact ends w same
  · refine further (only_supervise _) same fun _ w same => ?_
    refine further (.perform trivial fun _ => .done) same fun holder w same => ?_
    split
    · exact ends w same
    · split
      · exact ends w same
      · refine further (.perform trivial fun _ => .done) same fun identity w same => ?_
        split
        · exact ends w same
        · split
          · refine further (.perform trivial fun _ => .done) same fun clock w same => ?_
            refine further (only_exceptNelix (.perform trivial fun _ => .done) fun _ => .pure) same
              fun _ w same => ?_
            split
            · exact Setting.safe_alone.mpr (adoptReported_finds same was)
            · exact ends w same
          · exact ends w same

theorem discoverIdle_finds (at_ : Deployment) : Finds w ((Registry.discoverIdle at_ true).run c.answer w).1
    ((Registry.discoverIdle at_ true).run c.answer w).2 := by
  have composed : (Registry.discoverIdle at_ true).run c.answer w =
      (if w.cell.active = none ∧ true = true then Registry.discoverLocked at_
        else pure () : GenRoutine Unit).run c.answer w := rfl
  rw [composed]
  by_cases was : w.cell.active = none
  · rw [if_pos ⟨was, rfl⟩]
    exact discoverLocked_finds was (.refl w)
  · rw [if_neg fun both => was both.1]
    exact (Unmoved.refl w).finds

/-- `generations` returns what the registry holds afterwards. -/
theorem generations_finds {gens : List Adopted}
    (ran : (Registry.generations at_ true).run c.answer w = (.ok gens, w')) :
    gens = w'.cell.active.toList ∧ Discovered w w' := by
  let body : GenRoutine (List Adopted) := do
    Registry.discoverIdle at_ true
    let cell ← readCell
    pure cell.active.toList
  have composed : (Registry.generations at_ true).run c.answer w =
      (unlockRegistry >>= fun _ => (.done (body.run c.answer w).1 : GenRoutine (List Adopted))).run
        c.answer (body.run c.answer w).2 := Prog.run_ensure body unlockRegistry w
  have unlocked : (Registry.generations at_ true).run c.answer w = body.run c.answer w := composed
  have found := discoverIdle_finds (c := c) (w := w) at_
  rw [unlocked, Prog.run_bind] at ran
  generalize (Registry.discoverIdle at_ true).run c.answer w = discovered at found ran
  obtain ⟨x | _, w₁⟩ := discovered
  · cases ran
  · cases ran
    exact ⟨rfl, found () rfl⟩

/-! ### What is asked of the board -/

/-- The generations that the registry exposes. -/
def Boot.exposed (w : Boot) : List Adopted := w.cell.active.toList

/-- The session has an archived result, and the archive was read. -/
def BoardForward.Archives (f : BoardForward) (owner : String) (reads : BoardReads)
    (sessionId : String) : Prop :=
  f.archiveEpoch ≠ none ∧ ∃ seq records, reads.snapshot owner = .ok (seq, records) ∧
    ∃ record ∈ records, record.row.sessionId = sessionId

/-- The live board of the generation was read, and each of its sessions is on the merged board
unless the archive has its result. -/
def Board.Contributed (board : Board) (f : BoardForward) (owner : String) (reads : BoardReads)
    (gens : List Adopted) (g : String) : Prop :=
  ∃ a ∈ gens, a.generationId = g ∧ ∃ own, forwardOne (reads.live g) = .ok (some own) ∧
    ∀ sid entry, own.sessions.get? sid = some entry →
      board.sessions.get? sid = some entry ∨ f.Archives owner reads sid

/-- Every generation with a serving epoch contributes its sessions or is listed as missing. -/
def Board.Complete (board : Board) (f : BoardForward) (owner : String) (reads : BoardReads)
    (w : Boot) : Prop :=
  ∀ g e, w.db.Serves g e →
    g ∈ board.boardIncomplete ∨ board.Contributed f owner reads w.exposed g

/-- An archived result stands in place of whatever is live of its session. -/
def Board.ArchiveWins (board : Board) (f : BoardForward) (owner : String) (reads : BoardReads) :
    Prop :=
  ∀ seq records, f.archiveEpoch ≠ none → reads.snapshot owner = .ok (seq, records) →
    ∀ record ∈ records, board.sessions.get? record.row.sessionId = none ∧
      board.recentTerminal.get? record.row.sessionId = some (archivedEntry record)

/-- The board is the same in whatever order the generations are read. -/
def Board.OrderFree (board : Board) (f : BoardForward) (owner : String) (reads : BoardReads)
    (w : Boot) : Prop :=
  ∀ gens, gens.Perm w.exposed → f.merged owner reads gens w.cell.topologyRevision = .ok board

/-- Every generation with a serving epoch is the one that the registry holds. -/
def Boot.HoldsServing (w : Boot) : Prop :=
  ∀ g e, w.db.Serves g e → ∃ a, w.cell.active = some a ∧ a.generationId = g

/-! ### The archive's part -/

/-- What has an archived result is not live. -/
theorem mergeArchiveInto_sessions (records : List TerminalRecord) (live : Maps) (sid : String) :
    (mergeArchiveInto live records).sessions.get? sid =
      if ∃ record ∈ records, record.row.sessionId = sid then none else live.sessions.get? sid := by
  induction records generalizing live with
  | nil => simp [mergeArchiveInto]
  | cons record rest ih =>
    have later := ih (suppress live record)
    rw [mergeArchiveInto, List.foldl_cons]
    refine later.trans ?_
    have first : (suppress live record).sessions.get? sid =
        if sid = record.row.sessionId then none else live.sessions.get? sid := Dict.get?_pop ..
    rw [first]
    simp only [List.mem_cons, exists_eq_or_imp]
    by_cases here : record.row.sessionId = sid
    · simp [here]
    · simp [here, Ne.symm here]

/-- A session without an archived result keeps its entry. -/
theorem mergeArchiveInto_other {records : List TerminalRecord} {sid : String}
    (absent : ∀ record ∈ records, record.row.sessionId ≠ sid) (live : Maps) :
    (mergeArchiveInto live records).recentTerminal.get? sid = live.recentTerminal.get? sid := by
  induction records generalizing live with
  | nil => rfl
  | cons record rest ih =>
    have apart := absent record (by simp)
    have later := ih (fun other member => absent other (List.mem_cons_of_mem record member))
      (suppress live record)
    rw [mergeArchiveInto, List.foldl_cons]
    refine later.trans ?_
    have first := Dict.get?_set (live.recentTerminal.pop record.row.sessionId)
      record.row.sessionId sid (archivedEntry record)
    exact first.trans ((if_neg (Ne.symm apart)).trans
      ((Dict.get?_pop ..).trans (if_neg (Ne.symm apart))))

/-- An archived result is the one entry of its session. -/
theorem mergeArchiveInto_recent {records : List TerminalRecord} {record : TerminalRecord}
    (distinct : (records.map (·.row.sessionId)).Nodup) (member : record ∈ records) (live : Maps) :
    (mergeArchiveInto live records).recentTerminal.get? record.row.sessionId =
      some (archivedEntry record) := by
  induction records generalizing live with
  | nil => cases member
  | cons first rest ih =>
    rw [List.map_cons, List.nodup_cons] at distinct
    rw [mergeArchiveInto, List.foldl_cons]
    rcases List.mem_cons.mp member with rfl | later
    · have absent : ∀ other ∈ rest, other.row.sessionId ≠ record.row.sessionId :=
        fun other held same => distinct.1 (List.mem_map.mpr ⟨other, held, same⟩)
      refine (mergeArchiveInto_other absent (suppress live record)).trans ?_
      exact (Dict.get?_set ..).trans (if_pos rfl)
    · exact ih distinct.2 later _

/-- The records of a snapshot have sessions of their own. -/
theorem snapshot_distinct {seq : ℕ} {records : List TerminalRecord}
    (read : reads.snapshot owner = .ok (seq, records)) :
    (records.map (·.row.sessionId)).Nodup := by
  unfold BoardReads.snapshot at read
  split at read
  · cases read
  · rename_i db held
    split at read
    · rename_i snapshot found
      simp only [Db.readBoardSnapshot, bind_ok, pure, Except.pure, Except.ok.injEq] at found
      obtain ⟨_, -, rfl⟩ := found
      cases read
      exact listTerminal_distinct db owner
    · cases read
    · cases read

/-- The archive either suppresses what it has results for, or changes nothing. -/
theorem mergeArchive_ok {merged maps : Maps} {cursor cursor' : Cursor} {missed : Bool}
    (done : f.mergeArchive owner reads merged cursor = .ok (maps, cursor', missed)) :
    (f.archiveEpoch ≠ none ∧ ∃ seq records, reads.snapshot owner = .ok (seq, records) ∧
      maps = mergeArchiveInto merged records) ∨
    ((f.archiveEpoch = none ∨ ∃ fault, reads.snapshot owner = .error fault) ∧ maps = merged) := by
  unfold BoardForward.mergeArchive at done
  split at done
  · cases done
    exact .inr ⟨.inl ‹_›, rfl⟩
  · rename_i archiveEpoch here
    split at done
    · rename_i read
      cases done
      exact .inl ⟨by simp [here], _, _, read, rfl⟩
    · rename_i read
      cases done
      exact .inr ⟨.inr ⟨_, read⟩, rfl⟩
    · rename_i read
      cases done
      exact .inr ⟨.inr ⟨_, read⟩, rfl⟩
    · rename_i read
      split at done
      · cases done
        exact .inr ⟨.inr ⟨_, read⟩, rfl⟩
      · cases done

/-- A live session is on the board unless the archive has its result. -/
theorem mergeArchive_keeps {merged maps : Maps} {cursor cursor' : Cursor} {missed : Bool}
    (done : f.mergeArchive owner reads merged cursor = .ok (maps, cursor', missed)) {sid : String}
    {entry : Json} (live : merged.sessions.get? sid = some entry) :
    maps.sessions.get? sid = some entry ∨ f.Archives owner reads sid := by
  rcases mergeArchive_ok done with ⟨kept, seq, records, read, rfl⟩ | ⟨-, rfl⟩
  · rw [mergeArchiveInto_sessions]
    by_cases archived : ∃ record ∈ records, record.row.sessionId = sid
    · exact .inr ⟨kept, seq, records, read, archived⟩
    · exact .inl ((if_neg archived).trans live)
  · exact .inl live

/-! ### The merged board -/

/-- The parts of a merged board. -/
theorem merged_ok {gens : List Adopted} {revision : ℕ} {board : Board}
    (done : f.merged owner reads gens revision = .ok board) :
    ∃ cursor gathered maps, newCursor f.routerEpoch revision = .ok cursor ∧
      gens.foldlM (gatherOne reads.live) { cursor := cursor } = .ok gathered ∧
      f.mergeArchive owner reads (mergeBoards gathered.healthy) gathered.cursor =
        .ok (maps, board.cursor, board.archiveIncomplete) ∧
      board.sessions = maps.sessions ∧ board.recentTerminal = maps.recentTerminal ∧
      board.boardIncomplete = gathered.unavailable := by
  simp only [BoardForward.merged, bind_ok, pure, Except.pure, Except.ok.injEq] at done
  obtain ⟨cursor, started, gathered, looped, ⟨maps, cursor', missed⟩, archived, counts, -, rfl⟩ :=
    done
  exact ⟨cursor, gathered, maps, started, looped, archived, rfl, rfl, rfl⟩

theorem merged_archiveWins {gens : List Adopted} {revision : ℕ} {board : Board}
    (done : f.merged owner reads gens revision = .ok board) :
    board.ArchiveWins f owner reads := by
  obtain ⟨cursor, gathered, maps, -, -, archived, sessions, recent, -⟩ := merged_ok done
  intro seq records kept read record member
  rw [sessions, recent]
  rcases mergeArchive_ok archived with ⟨-, seq', records', read', rfl⟩ | ⟨unread, -⟩
  · rw [read, Except.ok.injEq, Prod.mk.injEq] at read'
    obtain ⟨rfl, rfl⟩ := read'
    refine ⟨?_, mergeArchiveInto_recent (snapshot_distinct read) member _⟩
    rw [mergeArchiveInto_sessions, if_pos ⟨record, member, rfl⟩]
  · rcases unread with none | ⟨fault, failed⟩
    · exact absurd none kept
    · rw [read] at failed
      cases failed

/-- What one generation comes to in the loop. -/
theorem gather_one {a : Adopted} {start gathered : Gathered}
    (looped : [a].foldlM (gatherOne reads.live) start = .ok gathered) :
    (forwardOne (reads.live a.generationId) = .ok none ∧
      gathered = { start with unavailable := start.unavailable ++ [a.generationId] }) ∨
    ∃ own cursor, forwardOne (reads.live a.generationId) = .ok (some own) ∧
      gathered = { start with
        healthy := start.healthy ++ [(a.generationId, own)]
        cursor := cursor } := by
  simp only [List.foldlM_cons, List.foldlM_nil, gatherOne, bind_ok, pure, Except.pure,
    Except.ok.injEq] at looped
  obtain ⟨_, ⟨answer, forwarded, stepped⟩, rfl⟩ := looped
  cases answer with
  | none => exact .inl ⟨forwarded, (Except.ok.inj stepped).symm⟩
  | some own =>
    simp only [bind_ok, Except.ok.injEq] at stepped
    obtain ⟨cursor, -, stepped⟩ := stepped
    exact .inr ⟨own, cursor, forwarded, stepped.symm⟩

/-- The one generation that is read contributes, or is listed as missing. -/
theorem merged_held {a : Adopted} {revision : ℕ} {board : Board}
    (done : f.merged owner reads [a] revision = .ok board) :
    a.generationId ∈ board.boardIncomplete ∨
      board.Contributed f owner reads [a] a.generationId := by
  obtain ⟨cursor, gathered, maps, -, looped, archived, sessions, -, incomplete⟩ := merged_ok done
  rcases gather_one looped with ⟨-, rfl⟩ | ⟨own, cursor', forwarded, rfl⟩
  · exact .inl (by simp [incomplete])
  · refine .inr ⟨a, by simp, rfl, own, forwarded, fun sid entry shown => ?_⟩
    have live : (mergeBoards [(a.generationId, own)]).sessions.get? sid = some entry := by
      have merged := Dict.get?_merge ∅ own.sessions sid
      rw [shown, Option.some_or] at merged
      exact merged
    rw [sessions]
    exact mergeArchive_keeps archived live

/-- Only what was read is listed as missing. -/
theorem merged_missing {gens : List Adopted} {revision : ℕ} {board : Board} {g : String}
    (atMost : gens = [] ∨ ∃ a, gens = [a])
    (done : f.merged owner reads gens revision = .ok board) (missing : g ∈ board.boardIncomplete) :
    ∃ a ∈ gens, a.generationId = g := by
  obtain ⟨cursor, gathered, maps, -, looped, -, -, -, incomplete⟩ := merged_ok done
  rw [incomplete] at missing
  rcases atMost with rfl | ⟨a, rfl⟩
  · cases looped
    cases missing
  · rcases gather_one looped with ⟨-, rfl⟩ | ⟨own, cursor', -, rfl⟩
    · exact ⟨a, by simp, (by simpa using missing : g = a.generationId).symm⟩
    · cases missing

/-- What a board that is answered was made of. -/
theorem status_ok {board : Board}
    (answered : (f.status at_ owner reads).run c.answer w = (.ok board, w')) :
    f.merged owner reads w'.exposed w'.cell.topologyRevision = .ok board ∧ Discovered w w' := by
  rw [BoardForward.status] at answered
  split at answered
  · cases answered
  · rw [Prog.run_bind] at answered
    generalize exposes : (Registry.generations at_ true).run c.answer w = exposed at answered
    obtain ⟨x | gens, w₁⟩ := exposed
    · cases answered
    · have revision : Registry.topologyRevision.run c.answer w₁ =
          (.ok w₁.cell.topologyRevision, w₁) := rfl
      dsimp only at answered
      rw [Prog.run_bind, revision] at answered
      simp only [Prog.run_done, Prod.mk.injEq] at answered
      obtain ⟨merged, rfl⟩ := answered
      obtain ⟨rfl, discovered⟩ := generations_finds exposes
      exact ⟨merged, discovered⟩

theorem exposed_atMost (w : Boot) : w.exposed = [] ∨ ∃ a, w.exposed = [a] := by
  unfold Boot.exposed
  cases w.cell.active with
  | none => exact .inl rfl
  | some a => exact .inr ⟨a, rfl⟩

theorem mem_exposed {a : Adopted} : a ∈ w.exposed ↔ w.cell.active = some a := by
  simp [Boot.exposed]

/-- Whatever is accounted for on the board is exposed. -/
theorem exposed_of_accounted {board : Board} {g : String}
    (merged : f.merged owner reads w.exposed w.cell.topologyRevision = .ok board)
    (accounted : g ∈ board.boardIncomplete ∨ board.Contributed f owner reads w.exposed g) :
    ∃ a, w.cell.active = some a ∧ a.generationId = g := by
  rcases accounted with missing | ⟨a, here, named, -⟩
  · obtain ⟨a, here, named⟩ := merged_missing (exposed_atMost w) merged missing
    exact ⟨a, mem_exposed.mp here, named⟩
  · exact ⟨a, mem_exposed.mp here, named⟩

theorem accounted_of_exposed {board : Board} {a : Adopted}
    (merged : f.merged owner reads w.exposed w.cell.topologyRevision = .ok board)
    (held : w.cell.active = some a) :
    a.generationId ∈ board.boardIncomplete ∨
      board.Contributed f owner reads w.exposed a.generationId := by
  have only : w.exposed = [a] := by simp [Boot.exposed, held]
  rw [only] at merged ⊢
  exact merged_held merged

/-- The merged board accounts for every generation with a serving epoch exactly when the registry
holds the only one; the archive wins and the order does not matter in any case. -/
theorem board_complete_iff (f : BoardForward) (at_ : Deployment) (c : Replies) (owner : String)
    (reads : BoardReads) (w w' : Boot) (board : Board)
    (answered : (f.status at_ owner reads).run c.answer w = (.ok board, w')) :
    (board.Complete f owner reads w' ∧ board.ArchiveWins f owner reads ∧
      board.OrderFree f owner reads w') ↔ w.HoldsServing := by
  obtain ⟨merged, discovered⟩ := status_ok answered
  have orderFree : board.OrderFree f owner reads w' := by
    intro gens shuffled
    rcases exposed_atMost w' with none | ⟨a, one⟩
    · rw [none] at shuffled merged
      exact List.perm_nil.mp shuffled ▸ merged
    · rw [one] at shuffled merged
      exact List.perm_singleton.mp shuffled ▸ merged
  refine Iff.trans (and_iff_left ⟨merged_archiveWins merged, orderFree⟩) ⟨?_, ?_⟩
  · intro complete g e serves
    cases discovered with
    | unmoved same =>
      obtain ⟨a, held, named⟩ :=
        exposed_of_accounted merged (complete g e ((same.serves g e).mpr serves))
      exact ⟨a, same.active.symm.trans held, named⟩
    | adopted a was now idle serving =>
      obtain ⟨a', held, rfl⟩ :=
        exposed_of_accounted merged (complete g e ((serving g e).mpr (.inl serves)))
      rw [now, Option.some.injEq] at held
      exact absurd (held ▸ serves) (idle e)
  · intro holds g e serves
    cases discovered with
    | unmoved same =>
      obtain ⟨a, held, rfl⟩ := holds g e ((same.serves g e).mp serves)
      exact accounted_of_exposed merged (same.active.trans held)
    | adopted a was now _ serving =>
      rcases (serving g e).mp serves with before | ⟨rfl, -⟩
      · obtain ⟨a', held, -⟩ := holds g e before
        rw [was] at held
        cases held
      · exact accounted_of_exposed merged now

/-! ### A board beside a draining generation -/

def nextGeneration : String := "g-0000000000000000000000000000000b"

/-- An activation has drained a generation that still serves. -/
def drainedCalls : List Call :=
  [.createGeneration sampleGeneration (some "build-1") .active none (.finite 1),
    .insertEpoch firstEpoch sampleGeneration none (.finite 1),
    .casEpochServing sampleGeneration firstEpoch none none,
    .createGeneration nextGeneration (some "build-2") .ready none (.finite 2),
    .insertEpoch secondEpoch nextGeneration none (.finite 2),
    .casEpochServing nextGeneration secondEpoch none none,
    .setGenerationLifecycleStateAtomic sampleGeneration nextGeneration .draining .active .ready]

/-- The registry has adopted the new generation. -/
def drainedBoot : Boot where
  db := machine.after {} drainedCalls
  cell :=
    { active := some ⟨⟨12, some "fp"⟩, secondEpoch, nextGeneration, "/n.sock", some "build-2"⟩
      generationId := some nextGeneration
      topologyRevision := 2 }

/-- Both daemons answer; a session is still at work in the draining one. -/
def drainedReads : BoardReads where
  live g :=
    if g = sampleGeneration then
      .answered 200 (.object [("cursor", .int 5),
        ("sessions", .object [(sampleId.value, .object [])]),
        ("recent_terminal", .object [])])
    else
      .answered 200 (.object [("cursor", .int 0), ("sessions", .object []),
        ("recent_terminal", .object [])])
  archive := .ok (machine.after {} drainedCalls)

def sampleForward : BoardForward := ⟨"router-1", some 1, none⟩

def drainedStatus : Except Raised Board × Boot :=
  (sampleForward.status sampleDeployment "owner" drainedReads).run livingDaemon.answer drainedBoot

/-- A board is answered, it lists nothing as missing, and the session is not on it. -/
def Board.omits (sid : String) : Except Raised Board × Boot → Bool
  | (.ok board, _) => board.boardIncomplete.isEmpty && (board.sessions.get? sid).isNone
  | _ => false

theorem answers_of_omits {sid : String} {answered : Except Raised Board × Boot}
    (omits : Board.omits sid answered = true) :
    ∃ board, answered = (.ok board, answered.2) ∧ board.boardIncomplete = [] ∧
      board.sessions.get? sid = none := by
  obtain ⟨_ | board, w⟩ := answered
  · cases omits
  · rw [Board.omits, Bool.and_eq_true, List.isEmpty_iff, Option.isNone_iff_eq_none] at omits
    exact ⟨board, rfl, omits⟩

theorem drainedStatus_omits : Board.omits sampleId.value drainedStatus = true := by decide +kernel

theorem board_complete_iff_drained :
    ∃ board, drainedStatus = (.ok board, drainedStatus.2) ∧
      ((board.Complete sampleForward "owner" drainedReads drainedStatus.2 ∧
        board.ArchiveWins sampleForward "owner" drainedReads ∧
        board.OrderFree sampleForward "owner" drainedReads drainedStatus.2) ↔
        drainedBoot.HoldsServing) := by
  obtain ⟨board, answered, -⟩ := answers_of_omits drainedStatus_omits
  exact ⟨board, answered, board_complete_iff sampleForward sampleDeployment livingDaemon "owner"
    drainedReads drainedBoot drainedStatus.2 board answered⟩

/-- The session of the draining generation is missing without a word, though its daemon answers. -/
theorem board_omits_draining :
    ∃ board, drainedStatus = (.ok board, drainedStatus.2) ∧ board.boardIncomplete = [] ∧
      board.sessions.get? sampleId.value = none ∧
      ¬ board.Complete sampleForward "owner" drainedReads drainedStatus.2 := by
  obtain ⟨board, answered, incomplete, absent⟩ := answers_of_omits drainedStatus_omits
  refine ⟨board, answered, incomplete, absent, fun complete => ?_⟩
  have serves : drainedStatus.2.db.standing firstEpoch = some (sampleGeneration, .serving) := by
    decide +kernel
  have held : drainedStatus.2.cell.active.map Adopted.generationId = some nextGeneration := by
    decide +kernel
  obtain ⟨a, active, named⟩ := exposed_of_accounted (status_ok answered).1
    (complete _ _ (serves_iff_standing.mpr serves))
  rw [active, Option.map_some, named] at held
  exact absurd held (by decide)

end Nelix.Router
